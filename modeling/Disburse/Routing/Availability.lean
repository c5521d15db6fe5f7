import Disburse.Library.Binary64
import Disburse.Routing.Select

/-!
Owns when `select_and_admit` finds an upstream: exactly when some upstream that
is not excluded would admit the request and can be scored. Scoreability in floats
is then read back to the averages of the pair: a score is lost where the weighted
averages are too small to be stored.
-/

namespace Disburse

open Disburse.Library

/-- Some upstream outside `excluded` that meets `P` would be admitted now. -/
def AdmissibleWith (cfg : Config) (pool : UpstreamPool) (now : Instant)
    (excluded : List String) (P : String → Prop) : Prop :=
  ∃ upstream ∈ cfg.pool, upstream.name ∉ excluded ∧ P upstream.name ∧
    (pool.cells upstream.name).Admissible now

/-- Scores read statistics, slots and the tip only. -/
theorem scoreable_congr {arith : Rounding} {cfg : Config} {before after : UpstreamPool}
    {method name : String}
    (stats : after.stats = before.stats) (tip : after.tipSlot = before.tipSlot)
    (slot : (after.cells name).lastSlot = (before.cells name).lastSlot) :
    Scoreable cfg after method name arith ↔ Scoreable cfg before method name arith := by
  unfold Scoreable genericScore
  rw [stats, slotLagPenalty_congr tip slot]

theorem tryAdmit_lastSlot (cells : UpstreamCells) (now : Instant) :
    (cells.tryAdmit now).1.lastSlot = cells.lastSlot := by
  unfold UpstreamCells.tryAdmit
  split
  · rfl
  · split <;> rfl

/-- A refusal by `upstream` leaves the other admissible upstreams as they were. -/
theorem admissibleWith_of_refusal {arith : Rounding} {cfg : Config}
    {before chosen : UpstreamPool} {now : Instant} {method : String} {filter : List String}
    {upstream : Upstream} {cells : UpstreamCells} (same : SameButLeader before chosen)
    (refused : (chosen.cells upstream.name).tryAdmit now = (cells, none)) :
    AdmissibleWith cfg (chosen.setCells upstream.name cells) now (filter ++ [upstream.name])
        (Scoreable cfg (chosen.setCells upstream.name cells) method · arith) ↔
      AdmissibleWith cfg before now filter (Scoreable cfg before method · arith) := by
  have slots : ∀ name, ((chosen.setCells upstream.name cells).cells name).lastSlot =
      (before.cells name).lastSlot := by
    intro name
    by_cases own : name = upstream.name
    · subst own
      have kept := tryAdmit_lastSlot (chosen.cells upstream.name) now
      rw [refused, same.cells] at kept
      rw [UpstreamPool.setCells_cells_self]
      exact kept
    · rw [UpstreamPool.setCells_cells_other _ _ _ own, same.cells]
  have scores : ∀ name, Scoreable cfg (chosen.setCells upstream.name cells) method name arith ↔
      Scoreable cfg before method name arith :=
    fun name => scoreable_congr same.stats same.tipSlot (slots name)
  have notAdmissible : ¬ (before.cells upstream.name).Admissible now := by
    rw [← same.cells]
    unfold UpstreamCells.Admissible
    rw [refused]
    simp
  constructor
  · rintro ⟨other, member, outside, scored, admissible⟩
    rw [List.mem_append, List.mem_singleton, not_or] at outside
    rw [UpstreamPool.setCells_cells_other _ _ _ outside.2, same.cells] at admissible
    exact ⟨other, member, outside.1, (scores other.name).mp scored, admissible⟩
  · rintro ⟨other, member, outside, scored, admissible⟩
    have different : other.name ≠ upstream.name := by
      intro equal
      rw [equal] at admissible
      exact notAdmissible admissible
    refine ⟨other, member, ?_, (scores other.name).mpr scored, ?_⟩
    · rw [List.mem_append, List.mem_singleton, not_or]
      exact ⟨outside, different⟩
    · rw [UpstreamPool.setCells_cells_other _ _ _ different, same.cells]
      exact admissible

theorem admitLoop_isSome (cfg : Config) (now : Instant) (method : String)
    (excluded : List String) (draws : Nat → Nat) (fuel : Nat) (skips : List String)
    (pool : UpstreamPool) (arith : Rounding)
    (enough : (unfiltered cfg (excluded ++ skips)).length < fuel) :
    (admitLoop cfg now method excluded draws fuel skips pool arith).2.isSome = true ↔
      AdmissibleWith cfg pool now (excluded ++ skips) (Scoreable cfg pool method · arith) := by
  induction fuel generalizing skips pool with
  | zero => omega
  | succ fuel inductionHypothesis =>
      have same := selectForMethod_sameButLeader cfg pool now method (excluded ++ skips)
        (draws skips.length) arith
      rw [admitLoop]
      split
      · -- No eligible upstream is scoreable, and an admissible one is not dropped.
        rename_i chosen selection
        have unscoreable := selectForMethod_eq_none.mp (by rw [selection] :
          (selectForMethod cfg pool now method (excluded ++ skips)
            (draws skips.length) arith).2 = none)
        simp only [Option.isSome_none, Bool.false_eq_true, false_iff]
        rintro ⟨upstream, member, outside, scored, admissible⟩
        have notDropped : pool.isDropped upstream.name now = false := by
          by_contra dropped
          rw [Bool.not_eq_false] at dropped
          exact UpstreamCells.not_admissible_iff.mpr (Or.inl dropped) admissible
        exact unscoreable upstream (mem_eligible.mpr ⟨member, outside, notDropped⟩) scored
      · rename_i chosen upstream selection
        rw [selection] at same
        have found := selectForMethod_mem (by rw [selection] :
          (selectForMethod cfg pool now method (excluded ++ skips)
            (draws skips.length) arith).2 = some upstream)
        have candidate := mem_eligible.mp found.1
        split
        · rename_i cells isProbe admission
          simp only [Option.isSome_some, true_iff]
          refine ⟨upstream, candidate.1, candidate.2.1, found.2, ?_⟩
          rw [← same.cells]
          unfold UpstreamCells.Admissible
          rw [admission]
          rfl
        · rename_i cells refusal
          have shorter := unfiltered_snoc_lt candidate.1 candidate.2.1
          rw [List.append_assoc] at shorter
          rw [inductionHypothesis _ _ (by omega), ← List.append_assoc]
          exact admissibleWith_of_refusal same refusal

/-- `select_and_admit` succeeds exactly when some upstream that is not excluded
is scoreable and would admit the request. -/
theorem selectAndAdmit_isSome (cfg : Config) (pool : UpstreamPool) (now : Instant)
    (method : String) (excluded : List String) (draws : Nat → Nat)
    (arith : Rounding := .exact) :
    (selectAndAdmit cfg pool now method excluded draws arith).2.isSome = true ↔
      AdmissibleWith cfg pool now excluded (Scoreable cfg pool method · arith) := by
  have enough : (unfiltered cfg (excluded ++ [])).length < cfg.pool.length + 1 :=
    Nat.lt_succ_of_le (List.length_filter_le _ _)
  have loop := admitLoop_isSome cfg now method excluded draws (cfg.pool.length + 1) [] pool arith
    enough
  rw [List.append_nil] at loop
  exact loop

/-! ### Scores that are not lost -/

theorem slotLagPenalty_pos (cfg : Config) (pool : UpstreamPool) (upstream : String)
    (arith : Rounding := .exact) : 0 < slotLagPenalty cfg pool upstream arith := by
  unfold slotLagPenalty
  split
  · exact Rounding.round_pos (by norm_num)
  · norm_num

/-- After any records no score of a pair is negative. -/
theorem pairScores_nonneg {arith : Rounding} {cfg : Config} {external : External}
    (valid : cfg.Valid external) {calls : List RecordCall}
    (latencies : ∀ call ∈ calls, 0 ≤ call.latencyMs) {stats : StatsStore}
    (recorded : stats =
      (StatsStore.new cfg.routing.ewmaAlpha cfg.health.rollingWindowSecs).run calls arith)
    (upstream method : String) :
    0 ≤ (pairScores stats upstream method arith).1 ∧
      0 ≤ (pairScores stats upstream method arith).2 := by
  unfold pairScores StatsStore.get
  cases found : stats.methods (upstream, method) with
  | none => norm_num
  | some entry =>
      rw [recorded] at found
      have averages := StatsStore.run_averages valid.ewmaAlpha.1 valid.ewmaAlpha.2
        cfg.health.rollingWindowSecs latencies found
      have latency := averages.latency
      dsimp only
      rw [if_pos averages.sampled]
      have shared : 0 ≤ arith.div entry.ewmaLatencyMs 100 := Rounding.round_nonneg (by positivity)
      have denominator : 0 ≤ arith.add 1 (arith.div entry.ewmaLatencyMs 100) :=
        Rounding.round_nonneg (by positivity)
      exact ⟨Rounding.round_nonneg (by positivity), averages.success⟩

/-- A sum of stored parts that are not negative is lost only with both parts. -/
theorem add_pos_iff {arith : Rounding} {first second : Rat} (firstStored : arith.Stored first)
    (secondStored : arith.Stored second) (firstNonneg : 0 ≤ first) (secondNonneg : 0 ≤ second) :
    0 < arith.add first second ↔ 0 < first ∨ 0 < second := by
  constructor
  · intro positive
    by_contra neither
    rw [not_or, not_lt, not_lt] at neither
    have firstZero := le_antisymm neither.1 firstNonneg
    have secondZero := le_antisymm neither.2 secondNonneg
    rw [Rounding.add, firstZero, secondZero, add_zero, Rounding.round_zero] at positive
    exact lt_irrefl _ positive
  · rintro (positive | positive)
    · exact positive.trans_le (firstStored.le_round (le_add_of_nonneg_right secondNonneg))
    · exact positive.trans_le (secondStored.le_round (le_add_of_nonneg_left firstNonneg))

/-- In floats the pair keeps a score: the method has a p50 path and a sample that
feeds it, or one of the weighted averages is more than half the least float; behind
the tip that is so for a tenth of their sum. -/
def Rateable (cfg : Config) (calls : List RecordCall) (pool : UpstreamPool)
    (method upstream : String) : Prop :=
  (method = "sendTransaction" ∧
    ∃ call ∈ calls, call.pair = (upstream, "sendTransaction") ∧ call.success = true) ∨
  if Lagging cfg pool upstream then
    2 ^ (-1075 : Int) <
      recordRating cfg pool.stats upstream method .binary64 * Rounding.binary64.round (1 / 10)
  else
    2 ^ (-1075 : Int) <
        cfg.routing.latencyWeight * (pairScores pool.stats upstream method .binary64).1 ∨
      2 ^ (-1075 : Int) <
        cfg.routing.successWeight * (pairScores pool.stats upstream method .binary64).2

theorem scoreable_iff_rateable {cfg : Config} {external : External} (valid : cfg.Valid external)
    {calls : List RecordCall} (latencies : ∀ call ∈ calls, 0 ≤ call.latencyMs)
    {pool : UpstreamPool}
    (recorded : pool.stats =
      (StatsStore.new cfg.routing.ewmaAlpha cfg.health.rollingWindowSecs).run calls .binary64)
    (method upstream : String) :
    Scoreable cfg pool method upstream .binary64 ↔ Rateable cfg calls pool method upstream := by
  obtain ⟨latencyNonneg, successNonneg⟩ :=
    pairScores_nonneg valid latencies recorded upstream method
  have p50 := StatsStore.run_sendTxP50_isSome cfg.routing.ewmaAlpha
    cfg.health.rollingWindowSecs calls .binary64 upstream
  rw [← recorded] at p50
  unfold Scoreable Rateable
  rw [p50]
  refine or_congr Iff.rfl ?_
  by_cases behind : Lagging cfg pool upstream
  · rw [if_pos behind, genericScore, slotLagPenalty, if_pos behind]
    exact round64_pos_iff
  · have level : genericScore cfg pool method upstream .binary64 =
        recordRating cfg pool.stats upstream method .binary64 := by
      rw [genericScore, slotLagPenalty, if_neg behind, Rounding.mul, mul_one]
      exact Rounding.binary64.stored_round _
    have parts := add_pos_iff (Rounding.binary64.stored_round _)
      (Rounding.binary64.stored_round _)
      (Rounding.round_nonneg (mul_nonneg valid.latencyWeight.1 latencyNonneg))
      (Rounding.round_nonneg (mul_nonneg valid.successWeight.1 successNonneg))
    rw [if_neg behind, level]
    exact parts.trans (or_congr round64_pos_iff round64_pos_iff)

/-! ### Availability -/

/-- What callers rely on: an upstream that would be admitted is found, and a
failure means that every upstream not excluded is open, is probing or is at
its cap. -/
structure SelectionAvailable (cfg : Config) (pool : UpstreamPool) (now : Instant)
    (method : String) (excluded : List String) (draws : Nat → Nat) : Prop where
  found : (∃ upstream ∈ cfg.pool, upstream.name ∉ excluded ∧
      (pool.cells upstream.name).Admissible now) →
    (selectAndAdmit cfg pool now method excluded draws .binary64).2.isSome = true
  failed : (selectAndAdmit cfg pool now method excluded draws .binary64).2 = none →
    ∀ upstream ∈ cfg.pool, upstream.name ∉ excluded →
      pool.isDropped upstream.name now = true ∨ pool.circuit upstream.name = .halfOpen true ∨
        (pool.cells upstream.name).permits = 0

theorem selectionAvailable_iff_isSome {cfg : Config} {pool : UpstreamPool} {now : Instant}
    {method : String} {excluded : List String} {draws : Nat → Nat} :
    SelectionAvailable cfg pool now method excluded draws ↔
      ((∃ upstream ∈ cfg.pool, upstream.name ∉ excluded ∧
          (pool.cells upstream.name).Admissible now) →
        (selectAndAdmit cfg pool now method excluded draws .binary64).2.isSome = true) := by
  refine ⟨SelectionAvailable.found, fun found => ⟨found, fun failed upstream member outside => ?_⟩⟩
  apply UpstreamCells.not_admissible_iff.mp
  intro admissible
  have success := found ⟨upstream, member, outside, admissible⟩
  rw [failed] at success
  cases success

/-- With the statistics and scores of floats, selection is available exactly when an
admissible upstream implies a rateable admissible one. -/
theorem selectAndAdmit_available_iff (external : External) (cfg : Config)
    (valid : cfg.validate external = .ok ()) (calls : List RecordCall)
    (latencies : ∀ call ∈ calls, 0 ≤ call.latencyMs) (pool : UpstreamPool)
    (recorded : pool.stats =
      (StatsStore.new cfg.routing.ewmaAlpha cfg.health.rollingWindowSecs).run calls .binary64)
    (now : Instant) (method : String) (excluded : List String) (draws : Nat → Nat) :
    SelectionAvailable cfg pool now method excluded draws ↔
      ((∃ upstream ∈ cfg.pool, upstream.name ∉ excluded ∧
          (pool.cells upstream.name).Admissible now) →
        ∃ upstream ∈ cfg.pool, upstream.name ∉ excluded ∧
          Rateable cfg calls pool method upstream.name ∧
          (pool.cells upstream.name).Admissible now) := by
  have rateable : AdmissibleWith cfg pool now excluded (Scoreable cfg pool method · .binary64) ↔
      AdmissibleWith cfg pool now excluded (Rateable cfg calls pool method) := by
    simp only [AdmissibleWith,
      scoreable_iff_rateable (validate_eq_ok.mp valid) latencies recorded]
  rw [selectionAvailable_iff_isSome,
    selectAndAdmit_isSome cfg pool now method excluded draws .binary64, rateable]
  rfl

/-- The numbers of the routing section as floats hold them. -/
def Config.inFloats (cfg : Config) : Config :=
  { cfg with
    routing := {
      latencyWeight := Rounding.binary64.round cfg.routing.latencyWeight
      successWeight := Rounding.binary64.round cfg.routing.successWeight
      ewmaAlpha := Rounding.binary64.round cfg.routing.ewmaAlpha
      hysteresisMargin := Rounding.binary64.round cfg.routing.hysteresisMargin } }

theorem Config.deployment_inFloats_validate :
    Config.deployment.inFloats.validate .plain = .ok () := by
  decide +kernel

/-- The hypotheses can be met: a pool that has just started. -/
theorem selectAndAdmit_available_deployment :
    let cfg := Config.deployment.inFloats
    SelectionAvailable cfg (.fromConfig cfg) 0 "getSlot" [] (fun _ => 0) := by
  intro cfg
  refine (selectAndAdmit_available_iff .plain cfg Config.deployment_inFloats_validate [] (by simp)
    (.fromConfig cfg) rfl 0 "getSlot" [] (fun _ => 0)).mpr ?_
  rintro ⟨upstream, member, outside, admissible⟩
  refine ⟨upstream, member, outside, Or.inr ?_, admissible⟩
  have fresh : pairScores (UpstreamPool.fromConfig cfg).stats upstream.name "getSlot"
      .binary64 = (1 / 2, 1 / 2) := rfl
  rw [if_neg (by simp [Lagging, UpstreamPool.fromConfig]), fresh]
  exact Or.inl (by decide +kernel)

/-- A config that scores by success alone. -/
def successOnly : Config :=
  let floats := Config.deployment.inFloats
  { floats with routing := { floats.routing with latencyWeight := 0, successWeight := 1 } }

/-- One failed call on each upstream. -/
def failedCalls : List RecordCall :=
  [{ now := 0, upstream := "helius", method := "getSlot", latencyMs := 5, success := false },
    { now := 0, upstream := "triton", method := "getSlot", latencyMs := 5, success := false }]

/-- Scored by success alone, two upstreams with closed circuits and free permits
become unreachable for a method after one failure each. -/
theorem selectAndAdmit_unavailable :
    successOnly.validate .plain = .ok () ∧
      ¬ SelectionAvailable successOnly
        { UpstreamPool.fromConfig successOnly with
          stats := (UpstreamPool.fromConfig successOnly).stats.run failedCalls .binary64 }
        1 "getSlot" [] (fun _ => 0) := by
  refine ⟨by decide +kernel, fun available => ?_⟩
  have found := available.found
    ⟨{ name := "helius", url := "https://mainnet.helius-rpc.com/" }, by decide +kernel,
      by decide +kernel, by decide +kernel⟩
  exact absurd found (by decide +kernel)

end Disburse
