import Disburse.Routing.Router
import Mathlib.Tactic.Positivity
import Mathlib.Tactic.Ring

/-!
Owns what `apply_hysteresis` can return, over all tie-breaks at once: the held
leader and nothing else, or any of the tied top. From that: when a challenger
replaces the leader, and that a lower score never helps an upstream.
-/

namespace Disburse

open Disburse.Library

/-- Some tie-break returns the upstream. -/
def CanReturn (pool : UpstreamPool) (method : String) (candidates : List (Upstream × Rat))
    (margin : Rat) (upstream : Upstream) (arith : Rounding := .exact) : Prop :=
  ∃ draw, (applyHysteresis pool method candidates margin draw arith).2 = some upstream

section Selection

variable {arith : Rounding} {pool : UpstreamPool} {method : String}
  {candidates : List (Upstream × Rat)} {margin : Rat}

/-- A held leader carries the remembered name. -/
theorem heldLeader_name {leader : Upstream}
    (held : heldLeader pool method candidates margin arith = some leader) :
    pool.currentLeader method = some leader.name := by
  unfold heldLeader at held
  split at held
  · cases held
  · rename_i name remembered
    rw [remembered]
    split at held
    · cases held
    · rename_i leader _ found
      split at held
      · rw [Option.some_inj] at held
        subst held
        have named : leader.name = name := by simpa using List.find?_some found
        rw [named]
      · cases held

theorem heldLeader_of_find {leader : String} {incumbent : Upstream × Rat}
    (remembered : pool.currentLeader method = some leader)
    (found : candidates.find? (fun entry => entry.1.name == leader) = some incumbent) :
    heldLeader pool method candidates margin arith =
      if arith.mul (topScore candidates) (arith.sub 1 margin) ≤ incumbent.2 then some incumbent.1
      else none := by
  simp only [heldLeader, remembered, found]

theorem heldLeader_eq_some {leader : Upstream} :
    heldLeader pool method candidates margin arith = some leader ↔
      ∃ name score, pool.currentLeader method = some name ∧
        candidates.find? (fun entry => entry.1.name == name) = some (leader, score) ∧
          arith.mul (topScore candidates) (arith.sub 1 margin) ≤ score := by
  constructor
  · intro held
    have remembered := heldLeader_name held
    cases found : candidates.find? fun entry => entry.1.name == leader.name with
    | none =>
        simp only [heldLeader, remembered, found] at held
        cases held
    | some incumbent =>
        rw [heldLeader_of_find remembered found] at held
        split at held
        · rename_i within
          cases held
          exact ⟨incumbent.1.name, incumbent.2, remembered, found, within⟩
        · cases held
  · rintro ⟨name, score, remembered, found, within⟩
    rw [heldLeader_of_find remembered found, if_pos within]

/-- The upstream returned is the leader afterwards. -/
theorem applyHysteresis_leader {draw : Nat} {upstream : Upstream}
    (returned : (applyHysteresis pool method candidates margin draw arith).2 = some upstream) :
    (applyHysteresis pool method candidates margin draw arith).1.currentLeader method =
      some upstream.name := by
  rcases applyHysteresis_cases pool method candidates margin draw arith with
    ⟨-, ended⟩ | ⟨leader, held, ended⟩ | ⟨-, chosen, score, -, ended⟩
  · rw [ended] at returned
    cases returned
  · rw [ended] at returned ⊢
    cases returned
    exact heldLeader_name held
  · rw [ended] at returned ⊢
    cases returned
    exact Function.update_self _ _ _

/-- A held leader is returned by every tie-break. -/
theorem applyHysteresis_of_held {leader : Upstream}
    (held : heldLeader pool method candidates margin arith = some leader) (draw : Nat) :
    applyHysteresis pool method candidates margin draw arith = (pool, some leader) := by
  rcases applyHysteresis_cases pool method candidates margin draw arith with
    ⟨empty, -⟩ | ⟨other, heldOther, ended⟩ | ⟨released, -⟩
  · obtain ⟨score, member⟩ := heldLeader_mem held
    rw [empty] at member
    cases member
  · cases held.symm.trans heldOther
    exact ended
  · cases held.symm.trans released

/-- What can be returned: the held leader, or without one any of the tied top. -/
theorem canReturn_iff {upstream : Upstream} :
    CanReturn pool method candidates margin upstream arith ↔
      heldLeader pool method candidates margin arith = some upstream ∨
        (heldLeader pool method candidates margin arith = none ∧
          ∃ score, (upstream, score) ∈ tiedTop candidates arith) := by
  constructor
  · rintro ⟨draw, returned⟩
    rcases applyHysteresis_cases pool method candidates margin draw arith with
      ⟨-, ended⟩ | ⟨leader, held, ended⟩ | ⟨released, chosen, score, member, ended⟩
    · rw [ended] at returned
      cases returned
    · rw [ended] at returned
      cases returned
      exact .inl held
    · rw [ended] at returned
      cases returned
      exact .inr ⟨released, score, member⟩
  · rintro (held | ⟨released, score, member⟩)
    · exact ⟨0, by rw [applyHysteresis_of_held held]⟩
    · obtain ⟨draw, lookup⟩ := List.mem_iff_getElem?.mp member
      have inside : draw < (tiedTop candidates arith).length :=
        (List.getElem?_eq_some_iff.mp lookup).1
      have nonempty : candidates ≠ [] := List.ne_nil_of_mem (List.mem_of_mem_filter member)
      refine ⟨draw, ?_⟩
      unfold applyHysteresis
      rw [if_neg (by simpa using nonempty), released]
      dsimp only
      rw [Nat.mod_eq_of_lt inside, lookup]

theorem mem_tiedTop {entry : Upstream × Rat} :
    entry ∈ tiedTop candidates arith ↔
      entry ∈ candidates ∧
        |arith.sub entry.2 (topScore candidates)| < arith.round (1 / 1000000000) := by
  rw [tiedTop, List.mem_filter, decide_eq_true_iff]

/-- What is returned is within the margin of the top or tied with it. -/
theorem CanReturn.near_top {upstream : Upstream}
    (returned : CanReturn pool method candidates margin upstream) :
    ∃ score, (upstream, score) ∈ candidates ∧
      (topScore candidates * (1 - margin) ≤ score ∨
        |score - topScore candidates| < 1 / 1000000000) := by
  rcases canReturn_iff.mp returned with held | ⟨-, score, tied⟩
  · obtain ⟨name, score, -, found, within⟩ := heldLeader_eq_some.mp held
    exact ⟨score, List.mem_of_find?_eq_some found, .inl within⟩
  · obtain ⟨member, near⟩ := mem_tiedTop.mp tied
    exact ⟨score, member, .inr near⟩

/-- Without a remembered leader the tied top can be returned, and nothing else. -/
theorem canReturn_iff_tied (leaderless : pool.currentLeader method = none) {upstream : Upstream} :
    CanReturn pool method candidates margin upstream arith ↔
      ∃ score, (upstream, score) ∈ candidates ∧
        |arith.sub score (topScore candidates)| < arith.round (1 / 1000000000) := by
  have released : heldLeader pool method candidates margin arith = none := by
    simp only [heldLeader, leaderless]
  rw [canReturn_iff, released]
  simp only [reduceCtorEq, true_and, false_or, mem_tiedTop]

end Selection

/-! ### Replacing the leader -/

/-- The method has another leader after the call. -/
def Replaces (pool : UpstreamPool) (method : String) (candidates : List (Upstream × Rat))
    (margin : Rat) (draw : Nat) (leader : String) : Prop :=
  (applyHysteresis pool method candidates margin draw).1.currentLeader method ≠ some leader

section Threshold

variable {pool : UpstreamPool} {method leader : String} {candidates : List (Upstream × Rat)}
  {margin : Rat} {incumbent : Upstream × Rat}

/-- A leader within the margin of the top is replaced by no tie-break. -/
theorem not_replaces_of_within (remembered : pool.currentLeader method = some leader)
    (found : candidates.find? (fun entry => entry.1.name == leader) = some incumbent)
    (within : topScore candidates * (1 - margin) ≤ incumbent.2) (draw : Nat) :
    ¬ Replaces pool method candidates margin draw leader := by
  have held : heldLeader pool method candidates margin = some incumbent.1 := by
    rw [heldLeader_of_find remembered found]
    exact if_pos within
  rw [Replaces, applyHysteresis_of_held held, not_not]
  exact remembered

/-- Beyond the margin every tie-break replaces the leader, unless one can draw it again. -/
theorem forall_replaces_iff (remembered : pool.currentLeader method = some leader)
    (found : candidates.find? (fun entry => entry.1.name == leader) = some incumbent)
    (beaten : incumbent.2 < topScore candidates * (1 - margin)) :
    (∀ draw, Replaces pool method candidates margin draw leader) ↔
      ∀ entry ∈ candidates, entry.1.name = leader →
        1 / 1000000000 ≤ |entry.2 - topScore candidates| := by
  have released : heldLeader pool method candidates margin = none := by
    rw [heldLeader_of_find remembered found]
    exact if_neg (not_le.mpr beaten)
  have nonempty : candidates ≠ [] := List.ne_nil_of_mem (List.mem_of_find?_eq_some found)
  constructor
  · intro replaces entry member named
    by_contra tied
    have drawn := canReturn_iff.mpr
      (.inr ⟨released, entry.2, mem_tiedTop.mpr ⟨member, not_le.mp tied⟩⟩)
    obtain ⟨draw, returned⟩ := drawn
    have kept := applyHysteresis_leader returned
    rw [named] at kept
    exact replaces draw kept
  · intro untied draw kept
    obtain ⟨upstream, -, -, returned⟩ := applyHysteresis_some pool method margin draw _ nonempty
    have name := (applyHysteresis_leader returned).symm.trans kept
    rcases canReturn_iff.mp ⟨draw, returned⟩ with held | ⟨-, score, tied⟩
    · cases released.symm.trans held
    · obtain ⟨member, near⟩ := mem_tiedTop.mp tied
      exact absurd near (not_lt.mpr (untied _ member (Option.some.inj name)))

/-- A challenger replaces the leader exactly when it beats its score by more than
the margin, unless it does so while the leader is within the margin of the top, or
the leader ties with the top. -/
theorem replaces_iff_threshold (positive : ∀ entry ∈ candidates, 0 < entry.2)
    (marginLt : margin < 1)
    (remembered : pool.currentLeader method = some leader)
    (found : candidates.find? (fun entry => entry.1.name == leader) = some incumbent) :
    (∀ draw, Replaces pool method candidates margin draw leader ↔
        incumbent.2 * (1 + margin) < topScore candidates) ↔
      topScore candidates ≤ incumbent.2 * (1 + margin) ∨
        (incumbent.2 < topScore candidates * (1 - margin) ∧
          ∀ entry ∈ candidates, entry.1.name = leader →
            1 / 1000000000 ≤ |entry.2 - topScore candidates|) := by
  have scorePos : 0 < incumbent.2 := positive incumbent (List.mem_of_find?_eq_some found)
  have rest : 0 < 1 - margin := sub_pos.mpr marginLt
  by_cases exceeds : incumbent.2 * (1 + margin) < topScore candidates
  · simp only [exceeds, iff_true, not_le.mpr exceeds, false_or]
    by_cases beaten : incumbent.2 < topScore candidates * (1 - margin)
    · rw [forall_replaces_iff remembered found beaten]
      simp only [beaten, true_and]
    · have within := not_lt.mp beaten
      constructor
      · intro replaces
        exact absurd (replaces 0) (not_replaces_of_within remembered found within 0)
      · intro condition
        exact absurd condition.1 beaten
  · have bounded := not_lt.mp exceeds
    -- The square of the margin is what the two thresholds differ by.
    have within : topScore candidates * (1 - margin) ≤ incumbent.2 :=
      calc topScore candidates * (1 - margin)
          ≤ incumbent.2 * (1 + margin) * (1 - margin) :=
            mul_le_mul_of_nonneg_right bounded rest.le
        _ = incumbent.2 - incumbent.2 * margin ^ 2 := by ring
        _ ≤ incumbent.2 := by
            have square : 0 ≤ incumbent.2 * margin ^ 2 := by positivity
            linarith
    simp only [exceeds, iff_false, bounded, true_or, iff_true]
    exact not_replaces_of_within remembered found within

/-- The leader "helius" at a score of 100, and a challenger. -/
def challenged (challenger : Rat) : List (Upstream × Rat) :=
  [({ name := "helius", url := "h" }, 100), ({ name := "triton", url := "t" }, challenger)]

theorem challenged_incumbent (challenger : Rat) :
    (challenged challenger).find? (fun entry => entry.1.name == "helius") =
      some ({ name := "helius", url := "h" }, 100) := rfl

def heliusLeads : UpstreamPool :=
  { UpstreamPool.fromConfig .deployment with currentLeader := fun _ => some "helius" }

theorem replaces_iff_threshold_doubled :
    (∀ draw, Replaces heliusLeads "getSlot" (challenged 200) (1 / 10) draw "helius" ↔
        100 * (1 + 1 / 10) < topScore (challenged 200)) ↔
      topScore (challenged 200) ≤ 100 * (1 + 1 / 10) ∨
        (100 < topScore (challenged 200) * (1 - 1 / 10) ∧
          ∀ entry ∈ challenged 200, entry.1.name = "helius" →
            1 / 1000000000 ≤ |entry.2 - topScore (challenged 200)|) := by
  have positive : ∀ entry ∈ challenged 200, 0 < entry.2 := by
    decide +kernel
  have marginLt : (1 / 10 : Rat) < 1 := by
    norm_num
  have remembered : heliusLeads.currentLeader "getSlot" = some "helius" := rfl
  have threshold := replaces_iff_threshold positive marginLt remembered (challenged_incumbent 200)
  exact threshold

/-- A challenger 11% better than the leader stays behind it at a margin of 10%. -/
theorem replaces_threshold_gap :
    100 * (1 + 1 / 10) < topScore (challenged 111) ∧
      ∀ draw, ¬ Replaces heliusLeads "getSlot" (challenged 111) (1 / 10) draw "helius" :=
  ⟨by decide +kernel, not_replaces_of_within rfl (challenged_incumbent 111) (by decide +kernel)⟩

end Threshold

/-! ### Lowering a score -/

section Lower

variable {left right : UpstreamPool} {method : String} {members : List Upstream}
  {score lowered : Upstream → Rat} {margin : Rat} {upstream : Upstream}

/-- The members with their scores. -/
def scoredBy (score : Upstream → Rat) (members : List Upstream) : List (Upstream × Rat) :=
  members.map fun member => (member, score member)

theorem mem_scoredBy {entry : Upstream × Rat} :
    entry ∈ scoredBy score members ↔ entry.1 ∈ members ∧ score entry.1 = entry.2 := by
  rw [scoredBy, List.mem_map]
  constructor
  · rintro ⟨member, inside, rfl⟩
    exact ⟨inside, rfl⟩
  · rintro ⟨inside, same⟩
    exact ⟨entry.1, inside, by rw [same]⟩

theorem score_le_topScore (score : Upstream → Rat) {member : Upstream}
    (inside : member ∈ members) : score member ≤ topScore (scoredBy score members) := by
  have listed : (member, score member) ∈ scoredBy score members :=
    mem_scoredBy.mpr ⟨inside, rfl⟩
  exact le_topScore listed

/-- The entry found by name does not depend on the scores. -/
theorem find?_scoredBy (leader : String) :
    (scoredBy score members).find? (fun entry => entry.1.name == leader) =
      (members.find? fun member => member.name == leader).map
        fun member => (member, score member) := by
  rw [scoredBy, List.find?_map]
  rfl

theorem heldLeader_scoredBy {pool : UpstreamPool} {leader : Upstream} :
    heldLeader pool method (scoredBy score members) margin = some leader ↔
      ∃ name, pool.currentLeader method = some name ∧
        members.find? (fun member => member.name == name) = some leader ∧
          topScore (scoredBy score members) * (1 - margin) ≤ score leader := by
  rw [heldLeader_eq_some]
  constructor
  · rintro ⟨name, value, remembered, found, within⟩
    rw [find?_scoredBy, Option.map_eq_some_iff] at found
    obtain ⟨member, first, same⟩ := found
    cases same
    exact ⟨name, remembered, first, within⟩
  · rintro ⟨name, remembered, first, within⟩
    exact ⟨name, score leader, remembered, by rw [find?_scoredBy, first]; rfl, within⟩

/-- Lowering one score lowers the top, or leaves it where it is. -/
theorem topScore_lowered (nonempty : members ≠ [])
    (lower : ∀ member ∈ members, lowered member ≤ score member) :
    topScore (scoredBy lowered members) ≤ topScore (scoredBy score members) := by
  have scoredNonempty : scoredBy lowered members ≠ [] := by simpa [scoredBy] using nonempty
  obtain ⟨top, member⟩ := topScore_mem scoredNonempty
  obtain ⟨inside, same⟩ := mem_scoredBy.mp member
  calc topScore (scoredBy lowered members) = lowered top := same.symm
    _ ≤ score top := lower top inside
    _ ≤ topScore (scoredBy score members) := score_le_topScore score inside

/-- The top before is the score of the lowered upstream, or it is still the top. -/
theorem topScore_before (nonempty : members ≠ [])
    (others : ∀ member ∈ members, member ≠ upstream → lowered member = score member) :
    topScore (scoredBy score members) = score upstream ∨
      topScore (scoredBy score members) ≤ topScore (scoredBy lowered members) := by
  have scoredNonempty : scoredBy score members ≠ [] := by simpa [scoredBy] using nonempty
  obtain ⟨top, member⟩ := topScore_mem scoredNonempty
  obtain ⟨inside, same⟩ := mem_scoredBy.mp member
  by_cases own : top = upstream
  · exact .inl (own ▸ same.symm)
  · refine .inr ?_
    calc topScore (scoredBy score members) = score top := same.symm
      _ = lowered top := (others top inside own).symm
      _ ≤ topScore (scoredBy lowered members) := score_le_topScore lowered inside

/-- Held at a lower score, the upstream was held at the higher one. -/
theorem heldLeader_of_lowered (leaders : right.currentLeader method = left.currentLeader method)
    (marginNonneg : 0 ≤ margin) (marginLe : margin ≤ 1) (positive : 0 < lowered upstream)
    (lower : lowered upstream ≤ score upstream)
    (others : ∀ member ∈ members, member ≠ upstream → lowered member = score member)
    (held : heldLeader right method (scoredBy lowered members) margin = some upstream) :
    heldLeader left method (scoredBy score members) margin = some upstream := by
  obtain ⟨name, remembered, first, within⟩ := heldLeader_scoredBy.mp held
  refine heldLeader_scoredBy.mpr ⟨name, leaders.symm.trans remembered, first, ?_⟩
  have nonempty : members ≠ [] := List.ne_nil_of_mem (List.mem_of_find?_eq_some first)
  rcases topScore_before nonempty others with own | bounded
  · rw [own]
    have scorePos : 0 ≤ score upstream := (positive.trans_le lower).le
    exact mul_le_of_le_one_right scorePos (by linarith)
  · calc topScore (scoredBy score members) * (1 - margin)
        ≤ topScore (scoredBy lowered members) * (1 - margin) :=
          mul_le_mul_of_nonneg_right bounded (sub_nonneg.mpr marginLe)
      _ ≤ lowered upstream := within
      _ ≤ score upstream := lower

/-- Another upstream that is held stays held. -/
theorem heldLeader_other (leaders : right.currentLeader method = left.currentLeader method)
    (marginLe : margin ≤ 1) (lower : ∀ member ∈ members, lowered member ≤ score member)
    {leader : Upstream} (same : lowered leader = score leader)
    (held : heldLeader left method (scoredBy score members) margin = some leader) :
    heldLeader right method (scoredBy lowered members) margin = some leader := by
  obtain ⟨name, remembered, first, within⟩ := heldLeader_scoredBy.mp held
  refine heldLeader_scoredBy.mpr ⟨name, leaders.trans remembered, first, ?_⟩
  have nonempty : members ≠ [] := List.ne_nil_of_mem (List.mem_of_find?_eq_some first)
  rw [same]
  exact (mul_le_mul_of_nonneg_right (topScore_lowered nonempty lower)
    (sub_nonneg.mpr marginLe)).trans within

/-- Tied with the top at a lower score, the upstream was tied at the higher one. -/
theorem tiedTop_of_lowered (lower : lowered upstream ≤ score upstream)
    (others : ∀ member ∈ members, member ≠ upstream → lowered member = score member) {value : Rat}
    (tied : (upstream, value) ∈ tiedTop (scoredBy lowered members)) :
    (upstream, score upstream) ∈ tiedTop (scoredBy score members) := by
  obtain ⟨member, near⟩ := mem_tiedTop.mp tied
  obtain ⟨inside, same⟩ := mem_scoredBy.mp member
  dsimp only at same
  have before : (upstream, score upstream) ∈ scoredBy score members :=
    mem_scoredBy.mpr ⟨inside, rfl⟩
  have below := le_topScore before
  refine mem_tiedTop.mpr ⟨before, ?_⟩
  rw [Rounding.exact_sub, Rounding.exact_round] at near ⊢
  rcases topScore_before (List.ne_nil_of_mem inside) others with own | bounded
  · rw [own, sub_self, abs_zero]
    norm_num
  · rw [abs_lt] at near ⊢
    dsimp only at below ⊢
    constructor <;> linarith [near.1, near.2]

/-- An upstream that can be returned could be returned at a higher score. -/
theorem canReturn_of_lowered (leaders : right.currentLeader method = left.currentLeader method)
    (marginNonneg : 0 ≤ margin) (marginLe : margin ≤ 1) (positive : 0 < lowered upstream)
    (lower : lowered upstream ≤ score upstream)
    (others : ∀ member ∈ members, member ≠ upstream → lowered member = score member)
    (returned : CanReturn right method (scoredBy lowered members) margin upstream) :
    CanReturn left method (scoredBy score members) margin upstream := by
  rcases canReturn_iff.mp returned with held | ⟨released, value, tied⟩
  · exact canReturn_iff.mpr
      (.inl (heldLeader_of_lowered leaders marginNonneg marginLe positive lower others held))
  · have lowerAll : ∀ member ∈ members, lowered member ≤ score member := by
      intro member inside
      by_cases own : member = upstream
      · exact own ▸ lower
      · exact (others member inside own).le
    cases held : heldLeader left method (scoredBy score members) margin with
    | none => exact canReturn_iff.mpr (.inr ⟨held, _, tiedTop_of_lowered lower others tied⟩)
    | some leader =>
        by_cases own : leader = upstream
        · exact canReturn_iff.mpr (.inl (own ▸ held))
        · obtain ⟨_, -, first, -⟩ := heldLeader_scoredBy.mp held
          have same := others leader (List.mem_of_find?_eq_some first) own
          have stays := heldLeader_other leaders marginLe lowerAll same held
          cases released.symm.trans stays

end Lower

section Pools

variable {cfg : Config} {left right : UpstreamPool} {now : Instant} {method : String}
  {exclude : List String}

/-- The score of a candidate on the path that the call takes. -/
def routeScore (cfg : Config) (pool : UpstreamPool) (now : Instant) (method : String)
    (exclude : List String) (upstream : Upstream) : Rat :=
  if method = "sendTransaction" ∧ measured cfg pool now exclude ≠ [] then
    bestP50 (measured cfg pool now exclude) /
      max ((pool.stats.sendTxP50 upstream.name).getD 0) (1 / 1000)
  else genericScore cfg pool method upstream.name

theorem scored_eq_scoredBy (cfg : Config) (pool : UpstreamPool) (now : Instant)
    (method : String) (exclude : List String) :
    scored cfg pool now method exclude =
      scoredBy (routeScore cfg pool now method exclude)
        ((scored cfg pool now method exclude).map Prod.fst) := by
  have keyed : ∀ entry ∈ scored cfg pool now method exclude,
      (entry.1, routeScore cfg pool now method exclude entry.1) = entry := by
    intro entry member
    unfold scored at member
    unfold routeScore
    split at member
    · rename_i path
      rw [if_pos path]
      obtain ⟨sample, sampleMember, rfl⟩ := List.mem_map.mp member
      rw [(mem_measured.mp sampleMember).2, Option.getD_some]
      rfl
    · rename_i path
      rw [if_neg path, (mem_genericCandidates.mp member).2.2]
  rw [scoredBy, List.map_map]
  exact (List.map_id _).symm.trans (List.map_congr_left fun entry member =>
    (keyed entry member).symm)

/-- An upstream that no tie-break selects is selected by none once its score is
lower, with the leader, the candidates and their other scores the same. -/
theorem selectForMethod_monotone {external : External} (validated : cfg.validate external = .ok ())
    (leaders : right.currentLeader method = left.currentLeader method)
    (candidates : (scored cfg right now method exclude).map Prod.fst =
      (scored cfg left now method exclude).map Prod.fst)
    {upstream : Upstream}
    (positive : 0 < routeScore cfg right now method exclude upstream)
    (lower : routeScore cfg right now method exclude upstream ≤
      routeScore cfg left now method exclude upstream)
    (others : ∀ member ∈ (scored cfg left now method exclude).map Prod.fst, member ≠ upstream →
      routeScore cfg right now method exclude member =
        routeScore cfg left now method exclude member)
    (never : ∀ draw, (selectForMethod cfg left now method exclude draw).2 ≠ some upstream) :
    ∀ draw, (selectForMethod cfg right now method exclude draw).2 ≠ some upstream := by
  have margin := (validate_eq_ok.mp validated).hysteresisMargin
  intro draw returned
  rw [selectForMethod_eq, scored_eq_scoredBy, candidates] at returned
  obtain ⟨before, found⟩ :=
    canReturn_of_lowered leaders margin.1 margin.2.le positive lower others ⟨draw, returned⟩
  apply never before
  rw [selectForMethod_eq, scored_eq_scoredBy]
  exact found

/-- The same state after a slow call through the other upstream. -/
def tritonSlower : UpstreamPool :=
  { heliusLeads with stats := heliusLeads.stats.record 0 "triton" "getSlot" 300 true }

theorem selectForMethod_monotone_slower :
    let triton : Upstream := { name := "triton", url := "https://your.triton-endpoint/" }
    routeScore .deployment tritonSlower 0 "getSlot" [] triton <
        routeScore .deployment heliusLeads 0 "getSlot" [] triton ∧
      ∀ draw, (selectForMethod .deployment tritonSlower 0 "getSlot" [] draw).2 ≠ some triton := by
  intro triton
  have lower : routeScore .deployment tritonSlower 0 "getSlot" [] triton <
      routeScore .deployment heliusLeads 0 "getSlot" [] triton := by decide +kernel
  have held : heldLeader heliusLeads "getSlot" (scored .deployment heliusLeads 0 "getSlot" [])
      Config.deployment.routing.hysteresisMargin =
        some { name := "helius", url := "https://mainnet.helius-rpc.com/" } := by
    decide +kernel
  have leaders : tritonSlower.currentLeader "getSlot" = heliusLeads.currentLeader "getSlot" := rfl
  refine ⟨lower, selectForMethod_monotone Config.deployment_validate leaders
    (by decide +kernel) (by decide +kernel) lower.le (by decide +kernel) fun draw => ?_⟩
  rw [selectForMethod_eq, applyHysteresis_of_held held]
  decide

end Pools

end Disburse
