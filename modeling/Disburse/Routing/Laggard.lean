import Disburse.Library.Binary64
import Disburse.Routing.Failure
import Disburse.Routing.Optimal

/-!
Owns when a laggard is selected before an upstream that keeps up and has as good a
record. The scores are the floats of the source, so the thresholds are those at which
floats tie; they are given for the p50s and for the weighted records themselves.
-/

namespace Disburse

open Disburse.Library

/-! ### Ties of floats -/

/-- Scores tie whose difference is at most this: the middle between the float
nearest to a billionth and the float below it. -/
def tieGap : Rat := 9671406556917033 / 2 ^ 83

theorem round64_billionth : round64 (1 / 1000000000) = 4835703278458517 * 2 ^ (-82 : Int) := by
  decide +kernel

theorem tied_iff {score top : Rat} (below : score ≤ top) :
    |Rounding.binary64.sub score top| < Rounding.binary64.round (1 / 1000000000) ↔
      top - score ≤ tieGap := by
  have gap : ((4835703278458517 : Int) - 1 / 2 : Rat) * 2 ^ (-82 : Int) = tieGap := by
    rw [tieGap]
    norm_num
  have nonneg : 0 ≤ round64 (top - score) :=
    Rounding.binary64.round_nonneg (sub_nonneg.mpr below)
  have flipped : |round64 (score - top)| = round64 (top - score) := by
    rw [← neg_sub, round64_neg, abs_neg, abs_of_nonneg nonneg]
  have cut := le_round64_iff 4835703278458517 (-82) (by norm_num) (by norm_num) (by norm_num)
    (by norm_num) (top - score)
  rw [gap] at cut
  change |round64 (score - top)| < round64 (1 / 1000000000) ↔ _
  rw [flipped, round64_billionth, ← not_lt, ← cut, not_le]
  norm_cast

/-- The greatest quotient of a p50 by another for which the scores do not tie. -/
def p50Cut : Rat := 18014398491467585 / 2 ^ 54

/-- A quotient does not tie with one exactly up to the cut. -/
theorem untied_one_iff {quotient : Rat} :
    tieGap < 1 - round64 quotient ↔ quotient ≤ p50Cut := by
  have middle : ((9007199245733793 : Int) - 1 / 2 : Rat) * 2 ^ (-53 : Int) = p50Cut := by
    rw [p50Cut]
    norm_num
  have cut := round64_le_iff 9007199245733793 (-53) (by norm_num) (by norm_num) (by norm_num)
    (by norm_num) quotient
  have reach := le_round64_iff 9007199245733793 (-53) (by norm_num) (by norm_num) (by norm_num)
    (by norm_num) quotient
  rw [middle] at cut reach
  rw [← cut]
  constructor
  · intro apart
    by_contra above
    have reached := reach.mpr (not_le.mp (fun within => above (cut.mpr within)))
    rw [tieGap] at apart
    norm_num at reached apart
    linarith
  · intro within
    rw [tieGap]
    norm_num at within ⊢
    linarith

/-! ### Who is never selected -/

section Lag

variable {cfg : Config} {pool : UpstreamPool} {now : Instant} {method : String}
  {exclude : List String} {upstream : Upstream}

/-- A candidate does not tie with the top exactly when another is far enough above it. -/
theorem untied_iff {candidates : List (Upstream × Rat)} {entry : Upstream × Rat}
    (member : entry ∈ candidates) :
    ¬ |Rounding.binary64.sub entry.2 (topScore candidates)| <
        Rounding.binary64.round (1 / 1000000000) ↔
      ∃ other ∈ candidates, tieGap < other.2 - entry.2 := by
  rw [tied_iff (le_topScore member), not_le]
  constructor
  · intro far
    obtain ⟨top, topMember⟩ := topScore_mem (List.ne_nil_of_mem member)
    exact ⟨_, topMember, far⟩
  · rintro ⟨other, otherMember, above⟩
    have bounded := le_topScore otherMember
    linarith

/-- Without a leader no tie-break selects an upstream exactly when its scores on the
path of the call are all outdone. -/
theorem unselected_iff (leaderless : pool.currentLeader method = none) :
    (∀ draw, (selectForMethod cfg pool now method exclude draw .binary64).2 ≠ some upstream) ↔
      ∀ score, (upstream, score) ∈ scored cfg pool now method exclude .binary64 →
        ∃ other ∈ scored cfg pool now method exclude .binary64, tieGap < other.2 - score := by
  constructor
  · intro never score member
    apply (untied_iff member).mp
    intro near
    have drawn : CanReturn pool method (scored cfg pool now method exclude .binary64)
        cfg.routing.hysteresisMargin upstream .binary64 :=
      (canReturn_iff_tied leaderless).mpr ⟨score, member, near⟩
    obtain ⟨draw, returned⟩ := drawn
    rw [← selectForMethod_eq] at returned
    exact never draw returned
  · intro above draw selected
    obtain ⟨score, member, near⟩ :=
      (canReturn_iff_tied leaderless).mp (selectForMethod_canReturn selected)
    exact (untied_iff member).mpr (above score member) near

/-! ### On the p50 path -/

/-- `least` is so far below `p50` that their scores do not tie. -/
def FarBelow (least p50 : Rat) : Prop :=
  let floor := round64 (1 / 1000)
  if floor ≤ least then least ≤ p50Cut * p50
  else tieGap < round64 (least / floor) - round64 (least / max p50 floor)

theorem farBelow_iff {least p50 : Rat} (ordered : least ≤ p50) :
    FarBelow least p50 ↔
      tieGap < p50Score least least .binary64 - p50Score least p50 .binary64 := by
  have floorPos : 0 < round64 (1 / 1000) := Rounding.binary64.round_pos (by norm_num)
  change _ ↔ tieGap < round64 (least / max least (round64 (1 / 1000))) -
    round64 (least / max p50 (round64 (1 / 1000)))
  unfold FarBelow
  dsimp only
  split
  · rename_i floored
    have leastPos : 0 < least := floorPos.trans_le floored
    have one : round64 (least / least) = 1 := by
      rw [div_self leastPos.ne']
      exact Rounding.binary64.round_one
    rw [max_eq_left floored, max_eq_left (floored.trans ordered), one, untied_one_iff,
      div_le_iff₀ (leastPos.trans_le ordered)]
  · rename_i below
    rw [max_eq_right (not_le.mp below).le]

/-- Among the p50s the least one decides. -/
theorem unselected_byP50_iff (leaderless : pool.currentLeader "sendTransaction" = none)
    (candidate : upstream ∈ eligible cfg pool now exclude)
    (someMeasured : SomeMeasured cfg pool now exclude)
    (nonneg : ∀ p50 ∈ eligibleP50s cfg pool now exclude, 0 ≤ p50) :
    (∀ draw, (selectForMethod cfg pool now "sendTransaction" exclude draw .binary64).2 ≠
        some upstream) ↔
      ∀ p50, pool.stats.sendTxP50 upstream.name = some p50 →
        ∃ least, IsLeast (eligibleP50s cfg pool now exclude) least ∧ FarBelow least p50 := by
  have isLeast := isLeast_bestP50 someMeasured
  rw [unselected_iff leaderless]
  constructor
  · intro above p50 lookup
    refine ⟨_, isLeast, (farBelow_iff (isLeast.2 ⟨upstream, candidate, lookup⟩)).mpr ?_⟩
    obtain ⟨other, member, gap⟩ :=
      above _ ((mem_scored_measured someMeasured isLeast).mpr ⟨candidate, p50, lookup, rfl⟩)
    have bounded := le_topScore member
    rw [topScore_measured someMeasured isLeast (nonneg _ isLeast.1)] at bounded
    linarith
  · intro far score member
    obtain ⟨-, p50, lookup, rfl⟩ := (mem_scored_measured someMeasured isLeast).mp member
    obtain ⟨least, leastBest, apart⟩ := far p50 lookup
    obtain ⟨other, otherCandidate, otherLookup⟩ := leastBest.1
    refine ⟨_, (mem_scored_measured someMeasured leastBest).mpr
      ⟨otherCandidate, least, otherLookup, rfl⟩, ?_⟩
    rw [isLeast.unique leastBest]
    exact (farBelow_iff (leastBest.2 ⟨upstream, candidate, lookup⟩)).mp apart

/-! ### On the generic path -/

/-- What a lag leaves of a rating. -/
def laggingScore (rating : Rat) : Rat := round64 (rating * round64 (1 / 10))

/-- The generic score as its rating and the lag give it. -/
def downgraded (cfg : Config) (pool : UpstreamPool) (upstream : String) (rating : Rat) : Rat :=
  if Lagging cfg pool upstream then laggingScore rating else rating

theorem genericScore_downgraded (name : String) :
    genericScore cfg pool method name .binary64 =
      downgraded cfg pool name (recordRating cfg pool.stats name method .binary64) := by
  unfold genericScore slotLagPenalty downgraded
  split
  · rfl
  · rw [Rounding.mul, mul_one]
    exact Rounding.stored_round .binary64 _

theorem unselected_byRating_iff (leaderless : pool.currentLeader method = none)
    (candidate : upstream ∈ eligible cfg pool now exclude)
    (generic : ¬ (method = "sendTransaction" ∧ SomeMeasured cfg pool now exclude)) :
    (∀ draw, (selectForMethod cfg pool now method exclude draw .binary64).2 ≠ some upstream) ↔
      (0 < genericScore cfg pool method upstream.name .binary64 →
        ∃ other ∈ eligible cfg pool now exclude,
          tieGap < genericScore cfg pool method other.name .binary64 -
            genericScore cfg pool method upstream.name .binary64) := by
  rw [unselected_iff leaderless, scored_generic generic]
  have gapPos : 0 < tieGap := by
    rw [tieGap]
    norm_num
  constructor
  · intro above positive
    obtain ⟨⟨other, score⟩, member, gap⟩ :=
      above _ (mem_genericCandidates.mpr ⟨candidate, positive, rfl⟩)
    obtain ⟨otherCandidate, -, rfl⟩ := mem_genericCandidates.mp member
    exact ⟨other, otherCandidate, gap⟩
  · intro outdone score member
    obtain ⟨-, positive, rfl⟩ := mem_genericCandidates.mp member
    obtain ⟨other, otherCandidate, gap⟩ := outdone positive
    have otherPositive : 0 < genericScore cfg pool method other.name .binary64 := by linarith
    exact ⟨_, mem_genericCandidates.mpr ⟨otherCandidate, otherPositive, rfl⟩, gap⟩

/-! ### A laggard beside an upstream that keeps up -/

/-- The record of `better` for the method is at least as good as that of `worse`. -/
structure AtLeastAsGood (stats : StatsStore) (method better worse : String) : Prop where
  averages : ∃ first second, stats.get better method = some first ∧
    stats.get worse method = some second ∧ 0 < first.samples ∧ 0 < second.samples ∧
      0 ≤ first.ewmaLatencyMs ∧ first.ewmaLatencyMs ≤ second.ewmaLatencyMs ∧
        second.ewmaSuccess ≤ first.ewmaSuccess
  p50 : ∀ p50, stats.sendTxP50 worse = some p50 →
    ∃ lower, stats.sendTxP50 better = some lower ∧ lower ≤ p50

/-- A fresh upstream with a record at least as good as that of a lagging one. The
latencies are elapsed times, so no p50 is negative. -/
structure OutdoesLaggard (cfg : Config) (pool : UpstreamPool) (now : Instant) (method : String)
    (exclude : List String) (fresh laggard : Upstream) : Prop where
  leaderless : pool.currentLeader method = none
  freshCandidate : fresh ∈ eligible cfg pool now exclude
  laggardCandidate : laggard ∈ eligible cfg pool now exclude
  inTime : ¬ Lagging cfg pool fresh.name
  behind : Lagging cfg pool laggard.name
  record : AtLeastAsGood pool.stats method fresh.name laggard.name
  elapsed : ∀ p50 ∈ eligibleP50s cfg pool now exclude, 0 ≤ p50

/-- When the laggard is left behind. The p50 path asks for a p50 far enough above the
least one, whoever lags; the generic path for a rating that is not tiny, or too tiny
for a score, or for an upstream far enough above what the lag leaves of it. -/
structure LeftBehind (cfg : Config) (pool : UpstreamPool) (now : Instant) (method : String)
    (exclude : List String) (laggard : Upstream) : Prop where
  byP50 : method = "sendTransaction" → SomeMeasured cfg pool now exclude →
    ∀ p50, pool.stats.sendTxP50 laggard.name = some p50 →
      ∃ least, IsLeast (eligibleP50s cfg pool now exclude) least ∧ FarBelow least p50
  byRating : ¬ (method = "sendTransaction" ∧ SomeMeasured cfg pool now exclude) →
    let rating (name : String) := recordRating cfg pool.stats name method .binary64
    1 / 500000000 ≤ rating laggard.name ∨
      rating laggard.name * round64 (1 / 10) ≤ 2 ^ (-1075 : Int) ∨
      ∃ other ∈ eligible cfg pool now exclude,
        tieGap < downgraded cfg pool other.name (rating other.name) -
          laggingScore (rating laggard.name)

/-- A better record has no lower rating. -/
theorem recordRating_mono {external : External} (valid : cfg.Valid external) {better worse : String}
    (record : AtLeastAsGood pool.stats method better worse) :
    recordRating cfg pool.stats worse method .binary64 ≤
      recordRating cfg pool.stats better method .binary64 := by
  obtain ⟨first, second, betterEntry, worseEntry, betterSampled, worseSampled, nonneg, faster,
    safer⟩ := record.averages
  have betterScores : pairScores pool.stats better method .binary64 =
      (latencyScore first.ewmaLatencyMs .binary64, first.ewmaSuccess) := by
    rw [pairScores, betterEntry]
    exact if_pos betterSampled
  have worseScores : pairScores pool.stats worse method .binary64 =
      (latencyScore second.ewmaLatencyMs .binary64, second.ewmaSuccess) := by
    rw [pairScores, worseEntry]
    exact if_pos worseSampled
  have latency : latencyScore second.ewmaLatencyMs .binary64 ≤
      latencyScore first.ewmaLatencyMs .binary64 := latencyScore_antitone nonneg faster
  unfold recordRating
  rw [betterScores, worseScores]
  apply Rounding.binary64.mono
  apply add_le_add
  · exact Rounding.binary64.mono (mul_le_mul_of_nonneg_left latency valid.latencyWeight.1)
  · exact Rounding.binary64.mono (mul_le_mul_of_nonneg_left safer valid.successWeight.1)

/-- A rating that is not tiny loses half at least. -/
theorem laggingScore_le_half {rating : Rat} (stored : Rounding.binary64.Stored rating)
    (visible : 1 / 500000000 ≤ rating) : laggingScore rating ≤ rating / 2 := by
  have nonneg : 0 ≤ rating := le_trans (by norm_num) visible
  have normal : (2 : Rat) ^ (-1021 : Int) < 1 / 500000000 :=
    calc (2 : Rat) ^ (-1021 : Int) ≤ 2 ^ (-60 : Int) :=
          zpow_le_zpow_right₀ (by norm_num) (by norm_num)
      _ < 1 / 500000000 := by norm_num
  have half : Rounding.binary64.Stored (rating / 2) :=
    stored_div_two stored (normal.trans_le visible)
  apply half.round_le
  have tenth : round64 (1 / 10) ≤ 1 / 2 := by
    have stored : Rounding.binary64.Stored (1 / 2) := Rounding.stored_half .binary64
    exact stored.round_le (by norm_num)
  calc rating * round64 (1 / 10) ≤ rating * (1 / 2) := mul_le_mul_of_nonneg_left tenth nonneg
    _ = rating / 2 := by ring

/-- A laggard is selected by no tie-break before an upstream that keeps up and has as
good a record exactly when it is left behind. -/
theorem laggard_unselected_iff {external : External} (validated : cfg.validate external = .ok ())
    {fresh laggard : Upstream}
    (outdoes : OutdoesLaggard cfg pool now method exclude fresh laggard) :
    (∀ draw, (selectForMethod cfg pool now method exclude draw .binary64).2 ≠ some laggard) ↔
      LeftBehind cfg pool now method exclude laggard := by
  by_cases path : method = "sendTransaction" ∧ SomeMeasured cfg pool now exclude
  · obtain ⟨rfl, someMeasured⟩ := path
    rw [unselected_byP50_iff outdoes.leaderless outdoes.laggardCandidate someMeasured
      outdoes.elapsed]
    constructor
    · intro far
      exact ⟨fun _ _ => far, fun generic => absurd ⟨rfl, someMeasured⟩ generic⟩
    · intro left
      exact left.byP50 rfl someMeasured
  · rw [unselected_byRating_iff outdoes.leaderless outdoes.laggardCandidate path]
    simp only [genericScore_downgraded]
    rw [downgraded, if_pos outdoes.behind]
    constructor
    · intro outdone
      refine ⟨fun sending someMeasured => absurd ⟨sending, someMeasured⟩ path, fun _ => ?_⟩
      intro rating
      rcases lt_or_ge (2 ^ (-1075 : Int)) (rating laggard.name * round64 (1 / 10)) with
        large | tiny
      · exact .inr (.inr (outdone (round64_pos_iff.mpr large)))
      · exact .inr (.inl tiny)
    · intro left positive
      rcases left.byRating path with visible | tiny | outdone
      · have valid := validate_eq_ok.mp validated
        have stored : Rounding.binary64.Stored
            (recordRating cfg pool.stats laggard.name method .binary64) :=
          Rounding.stored_round .binary64 _
        have half := laggingScore_le_half stored visible
        have better := recordRating_mono valid outdoes.record
        refine ⟨fresh, outdoes.freshCandidate, ?_⟩
        rw [downgraded, if_neg outdoes.inTime, tieGap]
        linarith
      · exact absurd (round64_pos_iff.mp positive) (not_lt.mpr tiny)
      · exact outdone

/-- One successful call on each upstream, at the same speed; "triton" is 100 slots
behind the tip. -/
def lagPool (method : String) : UpstreamPool :=
  let fresh := UpstreamPool.fromConfig .deployment
  let stats := (fresh.stats.record 0 "helius" method 5 true .binary64).record 0 "triton" method 5
    true .binary64
  { fresh with stats := stats, tipSlot := 100 }.storeSlot "helius" 100

theorem lagPool_p50 {upstream : String} (known : upstream = "helius" ∨ upstream = "triton") :
    (lagPool "getSlot").stats.sendTxP50 upstream = none ∧
      (lagPool "sendTransaction").stats.sendTxP50 upstream = some 5 := by
  have logs : (lagPool "getSlot").stats.sendTxLatency upstream = none ∧
      (lagPool "sendTransaction").stats.sendTxLatency upstream = some [(0, 5)] := by
    rcases known with rfl | rfl <;> decide +kernel
  rw [StatsStore.sendTxP50, StatsStore.sendTxP50, logs.1, logs.2]
  simp

/-- The names of the upstreams that a call on it can choose from. -/
theorem lagPool_known {upstream : Upstream} {method : String}
    (candidate : upstream ∈ eligible .deployment (lagPool method) 0 []) :
    upstream.name = "helius" ∨ upstream.name = "triton" := by
  have members : ∀ other ∈ Config.deployment.pool, other.name = "helius" ∨
      other.name = "triton" := by decide +kernel
  exact members upstream (mem_eligible.mp candidate).1

/-- In time and as fast, "helius" outdoes "triton". -/
theorem lagPool_outdoes {method : String}
    (known : method = "getSlot" ∨ method = "sendTransaction") :
    OutdoesLaggard .deployment (lagPool method) 0 method []
      { name := "helius", url := "https://mainnet.helius-rpc.com/" }
      { name := "triton", url := "https://your.triton-endpoint/" } := by
  have p50s : ∀ upstream p50, upstream = "helius" ∨ upstream = "triton" →
      (lagPool method).stats.sendTxP50 upstream = some p50 → p50 = 5 := by
    intro upstream p50 named lookup
    have both := lagPool_p50 named
    rcases known with rfl | rfl
    · rw [both.1] at lookup
      cases lookup
    · rw [both.2, Option.some_inj] at lookup
      exact lookup.symm
  have record : AtLeastAsGood (lagPool method).stats method "helius" "triton" := by
    constructor
    · rcases known with rfl | rfl <;>
        exact ⟨⟨5, 1, 1⟩, ⟨5, 1, 1⟩, by decide +kernel, by decide +kernel, by decide +kernel⟩
    · intro p50 lookup
      have five := p50s "triton" p50 (.inr rfl) lookup
      refine ⟨5, ?_, five.ge⟩
      rcases known with rfl | rfl
      · rw [(lagPool_p50 (.inr rfl)).1] at lookup
        cases lookup
      · exact (lagPool_p50 (.inl rfl)).2
  refine ⟨?_, ?_, ?_, ?_, ?_, record, ?_⟩
  · rcases known with rfl | rfl <;> rfl
  · rcases known with rfl | rfl <;> decide +kernel
  · rcases known with rfl | rfl <;> decide +kernel
  · rcases known with rfl | rfl <;> decide +kernel
  · rcases known with rfl | rfl <;> decide +kernel
  · rintro p50 ⟨upstream, candidate, lookup⟩
    rw [p50s upstream.name p50 (lagPool_known candidate) lookup]
    norm_num

theorem laggard_unselected_iff_lagPool :
    let triton : Upstream := { name := "triton", url := "https://your.triton-endpoint/" }
    (∀ draw, (selectForMethod .deployment (lagPool "getSlot") 0 "getSlot" [] draw .binary64).2 ≠
        some triton) ↔
      LeftBehind .deployment (lagPool "getSlot") 0 "getSlot" [] triton :=
  laggard_unselected_iff Config.deployment_validate (lagPool_outdoes (.inl rfl))

/-- With equal p50s the laggard can be selected for sendTransaction. -/
theorem laggard_selected :
    let helius : Upstream := { name := "helius", url := "https://mainnet.helius-rpc.com/" }
    let triton : Upstream := { name := "triton", url := "https://your.triton-endpoint/" }
    OutdoesLaggard .deployment (lagPool "sendTransaction") 0 "sendTransaction" [] helius triton ∧
      ∃ draw, (selectForMethod .deployment (lagPool "sendTransaction") 0 "sendTransaction" []
        draw .binary64).2 = some triton := by
  intro helius triton
  have outdoes := lagPool_outdoes (.inr rfl)
  refine ⟨outdoes, ?_⟩
  by_contra never
  have heliusP50 := (lagPool_p50 (.inl rfl)).2
  have tritonP50 := (lagPool_p50 (.inr rfl)).2
  obtain ⟨least, leastOf, far⟩ := (unselected_byP50_iff outdoes.leaderless
    outdoes.laggardCandidate ⟨helius, outdoes.freshCandidate, by rw [heliusP50]; rfl⟩
    outdoes.elapsed).mp (not_exists.mp never) 5 tritonP50
  obtain ⟨upstream, candidate, lookup⟩ := leastOf.1
  rw [(lagPool_p50 (lagPool_known candidate)).2, Option.some_inj] at lookup
  rw [farBelow_iff lookup.ge, ← lookup, sub_self, tieGap] at far
  norm_num at far

end Lag

end Disburse
