import Disburse.Routing.Leader
import Mathlib.Order.Bounds.Basic

/-!
Owns how good a selected upstream is: near the best eligible one on the scale
of the path that the call takes. The slot lag is part of one scale only.
-/

namespace Disburse

open Disburse.Library

/-! ### The two scales -/

section Scales

variable {arith : Rounding} {cfg : Config} {pool : UpstreamPool} {now : Instant} {method : String}
  {exclude : List String}

/-- Some eligible upstream has a sendTransaction p50. -/
def SomeMeasured (cfg : Config) (pool : UpstreamPool) (now : Instant) (exclude : List String) :
    Prop :=
  ∃ other ∈ eligible cfg pool now exclude, (pool.stats.sendTxP50 other.name).isSome = true

/-- The p50s of the eligible upstreams. -/
def eligibleP50s (cfg : Config) (pool : UpstreamPool) (now : Instant) (exclude : List String) :
    Set Rat :=
  {p50 | ∃ other ∈ eligible cfg pool now exclude, pool.stats.sendTxP50 other.name = some p50}

/-- The generic scores of the eligible upstreams. -/
def eligibleScores (cfg : Config) (pool : UpstreamPool) (now : Instant) (method : String)
    (exclude : List String) (arith : Rounding := .exact) : Set Rat :=
  {score | ∃ other ∈ eligible cfg pool now exclude,
    genericScore cfg pool method other.name arith = score}

/-- The score of a p50 against the best one. -/
def p50Score (best p50 : Rat) (arith : Rounding := .exact) : Rat :=
  arith.div best (max p50 (arith.round (1 / 1000)))

theorem p50Score_exact (best p50 : Rat) : p50Score best p50 = best / max p50 (1 / 1000) := rfl

theorem measured_ne_nil_iff :
    measured cfg pool now exclude ≠ [] ↔ SomeMeasured cfg pool now exclude := by
  constructor
  · intro nonempty
    obtain ⟨⟨other, p50⟩, member⟩ := List.exists_mem_of_ne_nil _ nonempty
    obtain ⟨candidate, lookup⟩ := mem_measured.mp member
    exact ⟨other, candidate, by rw [lookup]; rfl⟩
  · rintro ⟨other, candidate, sampled⟩
    obtain ⟨p50, lookup⟩ := Option.isSome_iff_exists.mp sampled
    exact List.ne_nil_of_mem (mem_measured.mpr ⟨candidate, lookup⟩)

theorem isLeast_bestP50 (someMeasured : SomeMeasured cfg pool now exclude) :
    IsLeast (eligibleP50s cfg pool now exclude) (bestP50 (measured cfg pool now exclude)) := by
  obtain ⟨attained, least⟩ := bestP50_least (measured_ne_nil_iff.mpr someMeasured)
  constructor
  · obtain ⟨⟨other, p50⟩, member, same⟩ := List.mem_map.mp attained
    obtain ⟨candidate, lookup⟩ := mem_measured.mp member
    exact ⟨other, candidate, by rw [← same, lookup]⟩
  · rintro p50 ⟨other, candidate, lookup⟩
    exact least p50 (List.mem_map_of_mem (f := Prod.snd) (mem_measured.mpr ⟨candidate, lookup⟩))

/-- The scores on the p50 path. -/
theorem mem_scored_measured (someMeasured : SomeMeasured cfg pool now exclude) {best : Rat}
    (isLeast : IsLeast (eligibleP50s cfg pool now exclude) best) {upstream : Upstream}
    {score : Rat} :
    (upstream, score) ∈ scored cfg pool now "sendTransaction" exclude arith ↔
      upstream ∈ eligible cfg pool now exclude ∧
        ∃ p50, pool.stats.sendTxP50 upstream.name = some p50 ∧
          p50Score best p50 arith = score := by
  have bestSame := (isLeast_bestP50 someMeasured).unique isLeast
  rw [scored, if_pos ⟨rfl, measured_ne_nil_iff.mpr someMeasured⟩, p50Scores, List.mem_map, bestSame]
  constructor
  · rintro ⟨⟨other, p50⟩, member, same⟩
    obtain ⟨candidate, lookup⟩ := mem_measured.mp member
    cases same
    exact ⟨candidate, p50, lookup, rfl⟩
  · rintro ⟨candidate, p50, lookup, rfl⟩
    exact ⟨(upstream, p50), mem_measured.mpr ⟨candidate, lookup⟩, rfl⟩

/-- On the p50 path the top is the score of the best p50, unless that is negative. -/
theorem topScore_measured (someMeasured : SomeMeasured cfg pool now exclude) {best : Rat}
    (isLeast : IsLeast (eligibleP50s cfg pool now exclude) best) (nonneg : 0 ≤ best) :
    topScore (scored cfg pool now "sendTransaction" exclude arith) = p50Score best best arith := by
  obtain ⟨other, candidate, lookup⟩ := isLeast.1
  have member : (other, p50Score best best arith) ∈
      scored cfg pool now "sendTransaction" exclude arith :=
    (mem_scored_measured someMeasured isLeast).mpr ⟨candidate, best, lookup, rfl⟩
  apply le_antisymm
  · obtain ⟨top, topMember⟩ := topScore_mem (List.ne_nil_of_mem member)
    obtain ⟨topCandidate, p50, topLookup, same⟩ :=
      (mem_scored_measured someMeasured isLeast).mp topMember
    have above : best ≤ p50 := isLeast.2 ⟨top, topCandidate, topLookup⟩
    rw [← same]
    apply arith.mono
    exact div_le_div_of_nonneg_left nonneg (floored_pos arith best) (max_le_max_right _ above)
  · exact le_topScore member

/-- The scores on the generic path. -/
theorem scored_generic
    (unmeasured : ¬ (method = "sendTransaction" ∧ SomeMeasured cfg pool now exclude)) :
    scored cfg pool now method exclude arith =
      genericCandidates cfg pool now method exclude arith := by
  have path : ¬ (method = "sendTransaction" ∧ measured cfg pool now exclude ≠ []) :=
    fun both => unmeasured ⟨both.1, measured_ne_nil_iff.mp both.2⟩
  rw [scored, if_neg path]

/-- On the generic path the top is the greatest score. -/
theorem isGreatest_topScore
    (nonempty : genericCandidates cfg pool now method exclude arith ≠ []) :
    IsGreatest (eligibleScores cfg pool now method exclude arith)
      (topScore (genericCandidates cfg pool now method exclude arith)) := by
  obtain ⟨top, topMember⟩ := topScore_mem nonempty
  obtain ⟨candidate, positive, same⟩ := mem_genericCandidates.mp topMember
  refine ⟨⟨top, candidate, same⟩, ?_⟩
  rintro score ⟨other, otherCandidate, rfl⟩
  rcases lt_or_ge 0 (genericScore cfg pool method other.name arith) with scoreable | unscoreable
  · exact le_topScore (mem_genericCandidates.mpr ⟨otherCandidate, scoreable, rfl⟩)
  · exact unscoreable.trans positive.le

end Scales

/-! ### What is selected -/

section Selected

variable {arith : Rounding} {cfg : Config} {pool : UpstreamPool} {now : Instant} {method : String}
  {exclude : List String} {draw : Nat} {upstream : Upstream}

theorem selectForMethod_canReturn
    (selected : (selectForMethod cfg pool now method exclude draw arith).2 = some upstream) :
    CanReturn pool method (scored cfg pool now method exclude arith)
      cfg.routing.hysteresisMargin upstream arith := by
  rw [selectForMethod_eq] at selected
  exact ⟨draw, selected⟩

/-- On the p50 path: the best p50 that is not below the floor is within the margin
of that of the upstream selected, or the two scores tie. -/
theorem selected_p50 (marginLe : cfg.routing.hysteresisMargin ≤ 1)
    (someMeasured : SomeMeasured cfg pool now exclude)
    (selected : (selectForMethod cfg pool now "sendTransaction" exclude draw).2 = some upstream) :
    ∃ p50 best, pool.stats.sendTxP50 upstream.name = some p50 ∧
      IsLeast (eligibleP50s cfg pool now exclude) best ∧
      (1 / 1000 ≤ best →
        p50 * (1 - cfg.routing.hysteresisMargin) ≤ best ∨
          |p50Score best p50 - p50Score best best| < 1 / 1000000000) := by
  have isLeast := isLeast_bestP50 someMeasured
  obtain ⟨score, member, near⟩ := (selectForMethod_canReturn selected).near_top
  obtain ⟨-, p50, lookup, rfl⟩ := (mem_scored_measured someMeasured isLeast).mp member
  refine ⟨p50, _, lookup, isLeast, fun floored => ?_⟩
  have bestPos : 0 < bestP50 (measured cfg pool now exclude) :=
    lt_of_lt_of_le (by norm_num) floored
  rw [topScore_measured someMeasured isLeast bestPos.le] at near
  rcases near with within | tied
  · left
    have one : p50Score (bestP50 (measured cfg pool now exclude))
        (bestP50 (measured cfg pool now exclude)) = 1 := by
      rw [p50Score_exact, max_eq_left floored, div_self bestPos.ne']
    have flooredPos : 0 < max p50 (1 / 1000) := floored_pos .exact p50
    rw [one, one_mul, p50Score_exact, le_div_iff₀ flooredPos] at within
    calc p50 * (1 - cfg.routing.hysteresisMargin)
        ≤ max p50 (1 / 1000) * (1 - cfg.routing.hysteresisMargin) :=
          mul_le_mul_of_nonneg_right (le_max_left _ _) (sub_nonneg.mpr marginLe)
      _ = (1 - cfg.routing.hysteresisMargin) * max p50 (1 / 1000) := mul_comm _ _
      _ ≤ bestP50 (measured cfg pool now exclude) := within
  · exact .inr tied

/-- On the generic path: the score of the upstream selected is within the margin
of the greatest one, or ties with it. -/
theorem selected_generic
    (unmeasured : ¬ (method = "sendTransaction" ∧ SomeMeasured cfg pool now exclude))
    (selected : (selectForMethod cfg pool now method exclude draw).2 = some upstream) :
    ∃ top, IsGreatest (eligibleScores cfg pool now method exclude) top ∧
      ((1 - cfg.routing.hysteresisMargin) * top ≤ genericScore cfg pool method upstream.name ∨
        |genericScore cfg pool method upstream.name - top| < 1 / 1000000000) := by
  obtain ⟨score, member, near⟩ := (selectForMethod_canReturn selected).near_top
  rw [scored_generic unmeasured] at member near
  obtain ⟨-, -, rfl⟩ := mem_genericCandidates.mp member
  refine ⟨_, isGreatest_topScore (List.ne_nil_of_mem member), ?_⟩
  rwa [mul_comm]

/-- What a selection promises: an upstream that the call may use, near the best
one on the scale of its path, and it is recorded as the leader of the method alone. -/
structure NearOptimal (cfg : Config) (pool after : UpstreamPool) (now : Instant)
    (method : String) (exclude : List String) (upstream : Upstream) : Prop where
  configured : upstream ∈ cfg.pool
  allowed : upstream.name ∉ exclude
  live : pool.isDropped upstream.name now = false
  byP50 : method = "sendTransaction" → SomeMeasured cfg pool now exclude →
    ∃ p50 best, pool.stats.sendTxP50 upstream.name = some p50 ∧
      IsLeast (eligibleP50s cfg pool now exclude) best ∧
      (1 / 1000 ≤ best →
        p50 * (1 - cfg.routing.hysteresisMargin) ≤ best ∨
          |p50Score best p50 - p50Score best best| < 1 / 1000000000)
  byScore : ¬ (method = "sendTransaction" ∧ SomeMeasured cfg pool now exclude) →
    ∃ top, IsGreatest (eligibleScores cfg pool now method exclude) top ∧
      ((1 - cfg.routing.hysteresisMargin) * top ≤ genericScore cfg pool method upstream.name ∨
        |genericScore cfg pool method upstream.name - top| < 1 / 1000000000)
  leader : after.currentLeader method = some upstream.name
  others : ∀ other, other ≠ method → after.currentLeader other = pool.currentLeader other

theorem selectForMethod_nearOptimal {external : External}
    (validated : cfg.validate external = .ok ())
    (selected : (selectForMethod cfg pool now method exclude draw).2 = some upstream) :
    NearOptimal cfg pool (selectForMethod cfg pool now method exclude draw).1 now method exclude
      upstream := by
  have margin := (validate_eq_ok.mp validated).hysteresisMargin
  obtain ⟨configured, allowed, live⟩ := mem_eligible.mp (selectForMethod_mem selected).1
  exact {
    configured := configured
    allowed := allowed
    live := live
    byP50 := by
      rintro rfl someMeasured
      exact selected_p50 margin.2.le someMeasured selected
    byScore := fun unmeasured => selected_generic unmeasured selected
    leader := selectForMethod_leader selected
    others := fun other different => selectForMethod_leader_other cfg pool now different exclude
      draw }

end Selected

theorem selectForMethod_nearOptimal_deployment :
    let fresh := UpstreamPool.fromConfig .deployment
    NearOptimal .deployment fresh (selectForMethod .deployment fresh 0 "getSlot" ["helius"] 0).1 0
      "getSlot" ["helius"] { name := "triton", url := "https://your.triton-endpoint/" } :=
  selectForMethod_nearOptimal Config.deployment_validate (by decide +kernel)

end Disburse
