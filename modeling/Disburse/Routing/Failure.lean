import Disburse.Routing.Availability

/-!
Owns what a failed call does to the generic score of its upstream. The failure
takes from the success average and moves the latency average towards its own
latency, so a fast failure can raise the score. The results hold of exact
arithmetic and of floats alike.
-/

namespace Disburse

open Disburse.Library

/-! ### The averages behind a score -/

/-- Latency and success of a pair as its score counts them. The warmup default is
the score of 100 ms with every second call failing. -/
def presentAverages (stats : StatsStore) (upstream method : String) : Rat × Rat :=
  match stats.get upstream method with
  | some entry =>
      if 0 < entry.samples then (entry.ewmaLatencyMs, entry.ewmaSuccess) else (100, 1 / 2)
  | none => (100, 1 / 2)

def latencyScore (latencyMs : Rat) (arith : Rounding := .exact) : Rat :=
  arith.div 1 (arith.add 1 (arith.div latencyMs 100))

section Averages

variable {arith : Rounding}

theorem latencyScore_default : latencyScore 100 arith = 1 / 2 := by
  have two := arith.stored_int 2 (by norm_num)
  have one : arith.div 100 100 = 1 := by
    rw [Rounding.div, div_self (by norm_num), Rounding.round_one]
  have sum : arith.add 1 1 = 2 := by
    rw [Rounding.add, one_add_one_eq_two]
    exact_mod_cast two
  rw [latencyScore, one, sum]
  exact arith.stored_half

theorem pairScores_eq (stats : StatsStore) (upstream method : String) :
    pairScores stats upstream method arith =
      (latencyScore (presentAverages stats upstream method).1 arith,
        (presentAverages stats upstream method).2) := by
  unfold pairScores presentAverages
  cases stats.get upstream method with
  | none => rw [latencyScore_default]
  | some entry =>
      dsimp only
      split
      · rfl
      · rw [latencyScore_default]

/-- A slower average has no better score. -/
theorem latencyScore_antitone {faster slower : Rat} (nonneg : 0 ≤ faster)
    (ordered : faster ≤ slower) : latencyScore slower arith ≤ latencyScore faster arith := by
  have shared : arith.div faster 100 ≤ arith.div slower 100 :=
    arith.mono (div_le_div_of_nonneg_right ordered (by norm_num))
  have sharedNonneg : 0 ≤ arith.div faster 100 := Rounding.round_nonneg (by positivity)
  have denominator : arith.add 1 (arith.div faster 100) ≤ arith.add 1 (arith.div slower 100) :=
    arith.mono (by linarith)
  have positive : 1 ≤ arith.add 1 (arith.div faster 100) :=
    Rounding.Stored.le_round arith.round_one (by linarith)
  exact arith.mono (one_div_le_one_div_of_le (by linarith) denominator)

/-- A failed sample takes from the success average. -/
theorem observe_failure_success {alpha : Rat} (alphaPos : 0 < alpha) {entry : MethodStats}
    (averages : StatsStore.Averages arith entry) (latencyMs : Rat) :
    (entry.observe alpha latencyMs false arith).ewmaSuccess ≤ entry.ewmaSuccess := by
  have sampled : entry.samples ≠ 0 := averages.sampled.ne'
  have rest : arith.sub 1 alpha ≤ 1 := Rounding.Stored.round_le arith.round_one (by linarith)
  have kept : arith.mul (arith.sub 1 alpha) entry.ewmaSuccess ≤ entry.ewmaSuccess :=
    averages.stored.round_le (mul_le_of_le_one_left averages.success rest)
  have nothing : arith.mul alpha (successValue false) = 0 := by
    rw [Rounding.mul, successValue, if_neg Bool.false_ne_true, mul_zero, Rounding.round_zero]
  rw [MethodStats.observe, if_neg sampled]
  dsimp only
  rw [nothing, Rounding.add, zero_add]
  exact averages.stored.round_le kept

end Averages

/-! ### A failure -/

/-- The state after a failed call is recorded. -/
def UpstreamPool.recordFailure (pool : UpstreamPool) (now : Instant) (upstream method : String)
    (latencyMs : Rat) (arith : Rounding := .exact) : UpstreamPool :=
  { pool with stats := pool.stats.record now upstream method latencyMs false arith }

/-- The two parts of a generic score. -/
def weightedLatency (cfg : Config) (stats : StatsStore) (upstream method : String)
    (arith : Rounding := .exact) : Rat :=
  arith.mul cfg.routing.latencyWeight
    (latencyScore (presentAverages stats upstream method).1 arith)

def weightedSuccess (cfg : Config) (stats : StatsStore) (upstream method : String)
    (arith : Rounding := .exact) : Rat :=
  arith.mul cfg.routing.successWeight (presentAverages stats upstream method).2

section Failure

variable {arith : Rounding} {cfg : Config} {pool : UpstreamPool}

theorem genericScore_eq_parts (cfg : Config) (pool : UpstreamPool) (upstream method : String) :
    genericScore cfg pool method upstream arith =
      arith.mul
        (arith.add (weightedLatency cfg pool.stats upstream method arith)
          (weightedSuccess cfg pool.stats upstream method arith))
        (slotLagPenalty cfg pool upstream arith) := by
  rw [genericScore, recordRating, pairScores_eq]
  rfl

/-- At one slot a lower sum of the parts has no higher score. -/
theorem genericScore_mono {first second : UpstreamPool} {upstream method : String}
    (penalty : slotLagPenalty cfg first upstream arith = slotLagPenalty cfg second upstream arith)
    (lower : weightedLatency cfg first.stats upstream method arith +
        weightedSuccess cfg first.stats upstream method arith ≤
      weightedLatency cfg second.stats upstream method arith +
        weightedSuccess cfg second.stats upstream method arith) :
    genericScore cfg first method upstream arith ≤
      genericScore cfg second method upstream arith := by
  rw [genericScore_eq_parts, genericScore_eq_parts, penalty]
  exact arith.mono (mul_le_mul_of_nonneg_right (arith.mono lower)
    (slotLagPenalty_pos cfg second upstream arith).le)

/-- What a failure leaves of the averages of its pair: less success, and no latency
below zero before it. -/
theorem presentAverages_recordFailure {external : External} (valid : cfg.Valid external)
    {calls : List RecordCall} (latencies : ∀ call ∈ calls, 0 ≤ call.latencyMs)
    (recorded : pool.stats =
      (StatsStore.new cfg.routing.ewmaAlpha cfg.health.rollingWindowSecs).run calls arith)
    (now : Instant) (upstream method : String) (latencyMs : Rat) :
    0 ≤ (presentAverages pool.stats upstream method).1 ∧
      (presentAverages (pool.recordFailure now upstream method latencyMs arith).stats upstream
        method).2 ≤ (presentAverages pool.stats upstream method).2 := by
  have own := StatsStore.record_methods_self pool.stats now upstream method latencyMs false arith
  have alpha : pool.stats.alpha = cfg.routing.ewmaAlpha := by
    rw [recorded, StatsStore.run_alpha]
    rfl
  have samples := StatsStore.observe_samples latencyMs false arith pool.stats.alpha
  unfold presentAverages UpstreamPool.recordFailure StatsStore.get
  simp only [own]
  rw [if_pos (by rw [samples]; exact Nat.succ_pos _)]
  cases found : pool.stats.methods (upstream, method) with
  | none => norm_num [MethodStats.observe, MethodStats.default, successValue]
  | some entry =>
      have averages := StatsStore.run_averages valid.ewmaAlpha.1 valid.ewmaAlpha.2
        cfg.health.rollingWindowSecs latencies (recorded ▸ found)
      dsimp only [Option.getD_some]
      rw [if_pos averages.sampled, alpha]
      exact ⟨averages.latency, observe_failure_success valid.ewmaAlpha.1 averages latencyMs⟩

/-- A failure that does not lower the latency average never raises the score. One
that lowers it leaves the score at most where it was while the weighted latency
score gains no more than the weighted success loses, and at least where it was while
it gains no less. -/
theorem genericScore_recordFailure (arith : Rounding) {external : External}
    (validated : cfg.validate external = .ok ()) {calls : List RecordCall}
    (latencies : ∀ call ∈ calls, 0 ≤ call.latencyMs)
    (recorded : pool.stats =
      (StatsStore.new cfg.routing.ewmaAlpha cfg.health.rollingWindowSecs).run calls arith)
    (now : Instant) (upstream method : String) (latencyMs : Rat) :
    let failed := pool.recordFailure now upstream method latencyMs arith
    let before := genericScore cfg pool method upstream arith
    let after := genericScore cfg failed method upstream arith
    let gain := weightedLatency cfg failed.stats upstream method arith -
      weightedLatency cfg pool.stats upstream method arith
    let loss := weightedSuccess cfg pool.stats upstream method arith -
      weightedSuccess cfg failed.stats upstream method arith
    ((presentAverages pool.stats upstream method).1 ≤
        (presentAverages failed.stats upstream method).1 → after ≤ before) ∧
      (gain ≤ loss → after ≤ before) ∧ (loss ≤ gain → before ≤ after) := by
  intro failed before after gain loss
  have valid := validate_eq_ok.mp validated
  have penalty : slotLagPenalty cfg failed upstream arith =
      slotLagPenalty cfg pool upstream arith := slotLagPenalty_congr rfl rfl
  obtain ⟨latency, success⟩ := presentAverages_recordFailure valid latencies recorded now upstream
    method latencyMs
  refine ⟨fun slower => genericScore_mono penalty (add_le_add ?_ ?_),
    fun outweighed => genericScore_mono penalty (by linarith),
    fun outweighs => genericScore_mono penalty.symm (by linarith)⟩
  · exact arith.mono (mul_le_mul_of_nonneg_left (latencyScore_antitone latency slower)
      valid.latencyWeight.1)
  · exact arith.mono (mul_le_mul_of_nonneg_left success valid.successWeight.1)

end Failure

/-- In floats a call that times out after five seconds does not raise the score of an
upstream without samples. -/
theorem genericScore_recordFailure_slow :
    let cfg := Config.deployment.inFloats
    let fresh := UpstreamPool.fromConfig cfg
    genericScore cfg (fresh.recordFailure 0 "helius" "getSlot" 5000 .binary64) "getSlot" "helius"
        .binary64 ≤
      genericScore cfg fresh "getSlot" "helius" .binary64 :=
  (genericScore_recordFailure .binary64 Config.deployment_inFloats_validate (List.forall_mem_nil _)
    rfl 0 "helius" "getSlot" 5000).1 (by decide +kernel)

/-- In floats a connection refused at once lifts an upstream without samples above the
warmup default. -/
theorem genericScore_recordFailure_refused :
    let cfg := Config.deployment.inFloats
    let fresh := UpstreamPool.fromConfig cfg
    let refused := fresh.recordFailure 0 "helius" "getSlot" 0 .binary64
    cfg.validate .plain = .ok () ∧
      genericScore cfg fresh "getSlot" "helius" .binary64 = 1 / 2 ∧
      genericScore cfg refused "getSlot" "helius" .binary64 = Rounding.binary64.round (7 / 10) ∧
      ¬ genericScore cfg refused "getSlot" "helius" .binary64 ≤
        genericScore cfg fresh "getSlot" "helius" .binary64 := by
  decide +kernel

end Disburse
