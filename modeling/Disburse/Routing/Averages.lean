import Disburse.Library.Smoothing
import Disburse.Routing.Failure
import Mathlib.Data.Set.Finite.Lemmas

/-!
Owns the value of the averages of an (upstream, method) pair after any records,
as a weighted sum of the samples of the pair, and the range of the generic score
that is built on them.
-/

namespace Disburse

open Disburse.Library

/-- What an entry says of the calls it was built from, `first` being the oldest. -/
structure WeightsCalls (alpha : Rat) (first : RecordCall) (later : List RecordCall)
    (entry : MethodStats) : Prop where
  samples : entry.samples = (first :: later).length
  latency : entry.ewmaLatencyMs =
    weightedSum alpha first.latencyMs (later.map RecordCall.latencyMs)
  /-- Not below the least latency. -/
  least : ∃ fastest ∈ first :: later,
    (∀ call ∈ first :: later, fastest.latencyMs ≤ call.latencyMs) ∧
      fastest.latencyMs ≤ entry.ewmaLatencyMs
  /-- Not above the greatest latency. -/
  greatest : ∃ slowest ∈ first :: later,
    (∀ call ∈ first :: later, call.latencyMs ≤ slowest.latencyMs) ∧
      entry.ewmaLatencyMs ≤ slowest.latencyMs
  success : entry.ewmaSuccess = weightedSum alpha (successValue first.success)
    (later.map fun call => successValue call.success)
  successRange : entry.ewmaSuccess ∈ Set.Icc 0 1

namespace StatsStore

/-! ### The entry of a pair -/

theorem successValue_mem_Icc (success : Bool) : successValue success ∈ Set.Icc 0 1 := by
  cases success <;> simp [successValue]

/-- Samples after the first are mixed into an entry. -/
theorem foldl_observeCall (alpha : Rat) {entry : MethodStats} (sampled : entry.samples ≠ 0)
    (later : List RecordCall) :
    later.foldl (observeCall .exact alpha) (some entry) =
      some
        { ewmaLatencyMs := smooth alpha entry.ewmaLatencyMs (later.map RecordCall.latencyMs)
          ewmaSuccess := smooth alpha entry.ewmaSuccess
            (later.map fun call => successValue call.success)
          samples := entry.samples + later.length } := by
  induction later generalizing entry with
  | nil => rfl
  | cons call rest inductionHypothesis =>
      have observed : observeCall .exact alpha (some entry) call = some
          { ewmaLatencyMs := alpha * call.latencyMs + (1 - alpha) * entry.ewmaLatencyMs
            ewmaSuccess := alpha * successValue call.success + (1 - alpha) * entry.ewmaSuccess
            samples := entry.samples + 1 } := by
        rw [observeCall, Option.getD_some, MethodStats.observe, if_neg sampled]
        rfl
      rw [List.foldl_cons, observed, inductionHypothesis (Nat.succ_ne_zero _)]
      simp only [List.map_cons, smooth_cons, List.length_cons, Nat.add_assoc, Nat.add_comm 1]

/-- The first sample replaces the default entry, the others are mixed in. -/
theorem foldl_observeCall_first (alpha : Rat) (first : RecordCall) (later : List RecordCall) :
    (first :: later).foldl (observeCall .exact alpha) none =
      some
        { ewmaLatencyMs := smooth alpha first.latencyMs (later.map RecordCall.latencyMs)
          ewmaSuccess := smooth alpha (successValue first.success)
            (later.map fun call => successValue call.success)
          samples := later.length + 1 } := by
  have seeded : observeCall .exact alpha none first = some
      { ewmaLatencyMs := first.latencyMs
        ewmaSuccess := successValue first.success
        samples := 1 } := rfl
  rw [List.foldl_cons, seeded, foldl_observeCall alpha Nat.one_ne_zero, Nat.add_comm]

/-- The averages of all samples stay within the range of the samples. -/
theorem weightsCalls {alpha : Rat} (alphaPos : 0 < alpha) (alphaLt : alpha < 1)
    (first : RecordCall) (later : List RecordCall) :
    WeightsCalls alpha first later
      { ewmaLatencyMs := smooth alpha first.latencyMs (later.map RecordCall.latencyMs)
        ewmaSuccess := smooth alpha (successValue first.success)
          (later.map fun call => successValue call.success)
        samples := later.length + 1 } := by
  have nonempty : {call | call ∈ first :: later}.Nonempty := ⟨first, List.mem_cons_self⟩
  obtain ⟨fastest, fastestIn, least⟩ :=
    Set.exists_min_image _ RecordCall.latencyMs (List.finite_toSet (first :: later)) nonempty
  obtain ⟨slowest, slowestIn, greatest⟩ :=
    Set.exists_max_image _ RecordCall.latencyMs (List.finite_toSet (first :: later)) nonempty
  have latencies : ∀ value ∈ (first :: later).map RecordCall.latencyMs,
      value ∈ Set.Icc fastest.latencyMs slowest.latencyMs := by
    intro value member
    obtain ⟨call, inside, rfl⟩ := List.mem_map.mp member
    exact ⟨least call inside, greatest call inside⟩
  have successes : ∀ value ∈ (first :: later).map fun call => successValue call.success,
      value ∈ Set.Icc (0 : Rat) 1 := by
    intro value member
    obtain ⟨call, -, rfl⟩ := List.mem_map.mp member
    exact successValue_mem_Icc call.success
  have latencyRange := smooth_mem_Icc alphaPos.le alphaLt.le latencies
  exact
    { samples := rfl
      latency := smooth_eq_weightedSum _ _ _
      least := ⟨fastest, fastestIn, least, latencyRange.1⟩
      greatest := ⟨slowest, slowestIn, greatest, latencyRange.2⟩
      success := smooth_eq_weightedSum _ _ _
      successRange := smooth_mem_Icc alphaPos.le alphaLt.le successes }

/-- The entry of a pair after any records from a new store. -/
theorem run_weightsCalls {alpha : Rat} (alphaPos : 0 < alpha) (alphaLt : alpha < 1)
    (windowSecs : Nat) {calls : List RecordCall} {pair : String × String} {first : RecordCall}
    {later : List RecordCall} (own : callsOn pair calls = first :: later) :
    ∃ entry, ((new alpha windowSecs).run calls).methods pair = some entry ∧
      WeightsCalls alpha first later entry := by
  have folded := foldl_observeCall_first alpha first later
  rw [← own] at folded
  exact ⟨_, (run_methods _ calls _ pair).trans folded, weightsCalls alphaPos alphaLt first later⟩

end StatsStore

/-! ### The generic score -/

theorem slotLagPenalty_le_one (cfg : Config) (pool : UpstreamPool) (upstream : String) :
    slotLagPenalty cfg pool upstream ≤ 1 := by
  unfold slotLagPenalty
  split <;> norm_num

theorem latencyScore_mem_Ioc {latencyMs : Rat} (nonneg : 0 ≤ latencyMs) :
    latencyScore latencyMs ∈ Set.Ioc 0 1 := by
  have denominator : 1 ≤ 1 + latencyMs / 100 := by
    have scaled : 0 ≤ latencyMs / 100 := by positivity
    linarith
  change 1 / (1 + latencyMs / 100) ∈ Set.Ioc 0 1
  exact ⟨by positivity, div_le_one_of_le₀ denominator (by positivity)⟩

/-- The two scores of a pair after any records, or by the warmup default. -/
theorem pairScores_range {alpha : Rat} (alphaPos : 0 < alpha) (alphaLt : alpha < 1)
    (windowSecs : Nat) {calls : List RecordCall}
    (latencies : ∀ call ∈ calls, 0 ≤ call.latencyMs) (upstream method : String) :
    (pairScores ((StatsStore.new alpha windowSecs).run calls) upstream method).1 ∈
        Set.Ioc (0 : Rat) 1 ∧
      (pairScores ((StatsStore.new alpha windowSecs).run calls) upstream method).2 ∈
        Set.Icc (0 : Rat) 1 := by
  unfold pairScores StatsStore.get
  cases own : StatsStore.callsOn (upstream, method) calls with
  | nil =>
      have missing : ((StatsStore.new alpha windowSecs).run calls).methods (upstream, method) =
          none := by
        rw [StatsStore.run_methods, own]
        rfl
      rw [missing]
      norm_num
  | cons first later =>
      obtain ⟨entry, found, weights⟩ := StatsStore.run_weightsCalls alphaPos alphaLt windowSecs own
      obtain ⟨fastest, fastestIn, -, notBelow⟩ := weights.least
      have nonneg : 0 ≤ fastest.latencyMs := by
        rw [← own] at fastestIn
        exact latencies fastest (List.mem_of_mem_filter fastestIn)
      have sampled : 0 < entry.samples := by
        rw [weights.samples]
        exact Nat.succ_pos _
      rw [found]
      dsimp only
      rw [if_pos sampled]
      exact ⟨latencyScore_mem_Ioc (nonneg.trans notBelow), weights.successRange⟩

/-- The generic score is at most the sum of the weights, and not zero when latency counts. -/
theorem genericScore_range {cfg : Config} (latencyWeight : 0 ≤ cfg.routing.latencyWeight)
    (successWeight : 0 ≤ cfg.routing.successWeight) {pool : UpstreamPool}
    {method upstream : String}
    (latency : (pairScores pool.stats upstream method).1 ∈ Set.Ioc 0 1)
    (success : (pairScores pool.stats upstream method).2 ∈ Set.Icc 0 1) :
    genericScore cfg pool method upstream ∈
        Set.Icc 0 (cfg.routing.latencyWeight + cfg.routing.successWeight) ∧
      (0 < cfg.routing.latencyWeight → 0 < genericScore cfg pool method upstream) := by
  have penaltyPos := slotLagPenalty_pos cfg pool upstream
  have latencyPart := mul_le_of_le_one_right latencyWeight latency.2
  have successPart := mul_le_of_le_one_right successWeight success.2
  have latencyNonneg := mul_nonneg latencyWeight latency.1.le
  have successNonneg := mul_nonneg successWeight success.1
  rw [genericScore_exact]
  refine ⟨⟨by positivity, ?_⟩, fun counts => ?_⟩
  · calc (cfg.routing.latencyWeight * (pairScores pool.stats upstream method).1 +
          cfg.routing.successWeight * (pairScores pool.stats upstream method).2) *
          slotLagPenalty cfg pool upstream
        ≤ cfg.routing.latencyWeight * (pairScores pool.stats upstream method).1 +
          cfg.routing.successWeight * (pairScores pool.stats upstream method).2 :=
          mul_le_of_le_one_right (by positivity) (slotLagPenalty_le_one cfg pool upstream)
      _ ≤ cfg.routing.latencyWeight + cfg.routing.successWeight := by linarith
  · have positive := mul_pos counts latency.1
    positivity

/-- The averages of every pair with samples are weighted sums within the range of
the samples, calls on other pairs do not change them, and the generic score that
is built on them is bounded by the weights. -/
theorem averages_and_score {alpha : Rat} (alphaPos : 0 < alpha) (alphaLt : alpha < 1)
    (windowSecs : Nat) {calls : List RecordCall}
    (latencies : ∀ call ∈ calls, 0 ≤ call.latencyMs) (upstream method : String) :
    let store := (StatsStore.new alpha windowSecs).run calls
    (∀ first later, StatsStore.callsOn (upstream, method) calls = first :: later →
      ∃ entry, store.get upstream method = some entry ∧ WeightsCalls alpha first later entry) ∧
      (∀ call : RecordCall, call.pair ≠ (upstream, method) →
        (store.run [call]).get upstream method = store.get upstream method) ∧
      ∀ (cfg : Config) (pool : UpstreamPool), pool.stats = store →
        0 ≤ cfg.routing.latencyWeight → 0 ≤ cfg.routing.successWeight →
        genericScore cfg pool method upstream ∈
            Set.Icc 0 (cfg.routing.latencyWeight + cfg.routing.successWeight) ∧
          (0 < cfg.routing.latencyWeight → 0 < genericScore cfg pool method upstream) := by
  intro store
  refine ⟨fun first later own => ?_, fun call other => ?_, fun cfg pool recorded => ?_⟩
  · exact StatsStore.run_weightsCalls alphaPos alphaLt windowSecs own
  · exact StatsStore.record_methods_other store call.now call.upstream call.method call.latencyMs
      call.success .exact (Ne.symm other)
  · intro latencyWeight successWeight
    have scores := pairScores_range alphaPos alphaLt windowSecs latencies upstream method
    change (pairScores store upstream method).1 ∈ _ ∧ (pairScores store upstream method).2 ∈ _
      at scores
    rw [← recorded] at scores
    exact genericScore_range latencyWeight successWeight scores.1 scores.2

/-- A success of 10 ms and a failure of 20 ms, with a call on another upstream between. -/
theorem averages_and_score_mixed :
    let calls : List RecordCall := [⟨0, "a", "getSlot", 10, true⟩,
      ⟨1, "b", "getSlot", 70, true⟩, ⟨2, "a", "getSlot", 20, false⟩]
    ∃ entry, ((StatsStore.new (1 / 2) 60).run calls).get "a" "getSlot" = some entry ∧
      entry.samples = 2 ∧ entry.ewmaLatencyMs = 15 ∧ entry.ewmaSuccess = 1 / 2 := by
  intro calls
  have latencies : ∀ call ∈ calls, 0 ≤ call.latencyMs := by decide +kernel
  have positive : (0 : Rat) < 1 / 2 := by norm_num
  obtain ⟨entry, found, weights⟩ :=
    (averages_and_score positive (by norm_num) 60 latencies "a" "getSlot").1
      ⟨0, "a", "getSlot", 10, true⟩ [⟨2, "a", "getSlot", 20, false⟩] (by decide +kernel)
  refine ⟨entry, found, weights.samples, ?_, ?_⟩
  · rw [weights.latency]
    norm_num [weightedSum]
  · rw [weights.success]
    norm_num [weightedSum, successValue]

end Disburse
