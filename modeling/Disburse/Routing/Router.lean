import Disburse.Routing.Pool
import Mathlib.Tactic.Linarith
import Mathlib.Tactic.NormNum

/-!
Owns the choice of an upstream for a method: the two scoring paths and the
sticky leader. Scores are computed in the arithmetic given, exactly where none
is. A random draw is an argument (`draw`, reduced modulo the number of tied
candidates), so a result for every draw is a result for every tie-break.
-/

namespace Disburse

open Disburse.Library

/-- Upstreams a call may choose from: not excluded and not dropped. -/
def eligible (cfg : Config) (pool : UpstreamPool) (now : Instant) (exclude : List String) :
    List Upstream :=
  cfg.pool.filter fun upstream =>
    !(exclude.contains upstream.name || pool.isDropped upstream.name now)

/-- Eligible upstreams with a sendTransaction p50. -/
def measured (cfg : Config) (pool : UpstreamPool) (now : Instant) (exclude : List String) :
    List (Upstream × Rat) :=
  (eligible cfg pool now exclude).filterMap fun upstream =>
    (pool.stats.sendTxP50 upstream.name).map fun p50 => (upstream, p50)

/-- The least p50, the fold starting at the first one in place of infinity. -/
def bestP50 : List (Upstream × Rat) → Rat
  | [] => 0
  | first :: rest => (rest.map Prod.snd).foldl min first.2

/-- Flip p50s to a score where higher is better. -/
def p50Scores (measured : List (Upstream × Rat)) (arith : Rounding := .exact) :
    List (Upstream × Rat) :=
  measured.map fun entry =>
    (entry.1, arith.div (bestP50 measured) (max entry.2 (arith.round (1 / 1000))))

/-- Latency and success score of a pair, with the warmup default. -/
def pairScores (stats : StatsStore) (upstream method : String) (arith : Rounding := .exact) :
    Rat × Rat :=
  match stats.get upstream method with
  | some entry =>
      if 0 < entry.samples then
        (arith.div 1 (arith.add 1 (arith.div entry.ewmaLatencyMs 100)), entry.ewmaSuccess)
      else (1 / 2, 1 / 2)
  | none => (1 / 2, 1 / 2)

/-- The upstream is further behind the tip than the config allows. -/
def Lagging (cfg : Config) (pool : UpstreamPool) (upstream : String) : Prop :=
  cfg.health.maxSlotLag < pool.tipSlot - (pool.cells upstream).lastSlot

instance (cfg : Config) (pool : UpstreamPool) (upstream : String) :
    Decidable (Lagging cfg pool upstream) :=
  inferInstanceAs (Decidable (_ < _))

def slotLagPenalty (cfg : Config) (pool : UpstreamPool) (upstream : String)
    (arith : Rounding := .exact) : Rat :=
  if Lagging cfg pool upstream then arith.round (1 / 10) else 1

/-- The weighted record of a pair, before the slot lag counts. -/
def recordRating (cfg : Config) (stats : StatsStore) (upstream method : String)
    (arith : Rounding := .exact) : Rat :=
  arith.add (arith.mul cfg.routing.latencyWeight (pairScores stats upstream method arith).1)
    (arith.mul cfg.routing.successWeight (pairScores stats upstream method arith).2)

def genericScore (cfg : Config) (pool : UpstreamPool) (method upstream : String)
    (arith : Rounding := .exact) : Rat :=
  arith.mul (recordRating cfg pool.stats upstream method arith)
    (slotLagPenalty cfg pool upstream arith)

theorem genericScore_exact (cfg : Config) (pool : UpstreamPool) (method upstream : String) :
    genericScore cfg pool method upstream =
      (cfg.routing.latencyWeight * (pairScores pool.stats upstream method).1 +
        cfg.routing.successWeight * (pairScores pool.stats upstream method).2) *
        slotLagPenalty cfg pool upstream := rfl

/-- Eligible upstreams with a positive generic score. -/
def genericCandidates (cfg : Config) (pool : UpstreamPool) (now : Instant) (method : String)
    (exclude : List String) (arith : Rounding := .exact) : List (Upstream × Rat) :=
  (eligible cfg pool now exclude).filterMap fun upstream =>
    let score := genericScore cfg pool method upstream.name arith
    if 0 < score then some (upstream, score) else none

/-- The greatest score, the fold starting at the first one in place of `f64::MIN`. -/
def topScore : List (Upstream × Rat) → Rat
  | [] => 0
  | first :: rest => (rest.map Prod.snd).foldl max first.2

/-- The candidates a new leader is drawn from. -/
def tiedTop (candidates : List (Upstream × Rat)) (arith : Rounding := .exact) :
    List (Upstream × Rat) :=
  candidates.filter fun entry =>
    |arith.sub entry.2 (topScore candidates)| < arith.round (1 / 1000000000)

/-- The remembered leader, while it is a candidate within the margin of the top. -/
def heldLeader (pool : UpstreamPool) (method : String) (candidates : List (Upstream × Rat))
    (margin : Rat) (arith : Rounding := .exact) : Option Upstream :=
  match pool.currentLeader method with
  | none => none
  | some leaderName =>
      match candidates.find? fun entry => entry.1.name == leaderName with
      | none => none
      | some (leader, leaderScore) =>
          if arith.mul (topScore candidates) (arith.sub 1 margin) ≤ leaderScore then some leader
          else none

def applyHysteresis (pool : UpstreamPool) (method : String)
    (candidates : List (Upstream × Rat)) (margin : Rat) (draw : Nat)
    (arith : Rounding := .exact) : UpstreamPool × Option Upstream :=
  if candidates.isEmpty then (pool, none)
  else
    match heldLeader pool method candidates margin arith with
    | some leader => (pool, some leader)
    | none =>
        let top := tiedTop candidates arith
        match top[draw % top.length]? with
        | none => (pool, none)
        | some (chosen, _) =>
            ({ pool with
                currentLeader :=
                  Function.update pool.currentLeader method (some chosen.name) },
              some chosen)

def selectForMethod (cfg : Config) (pool : UpstreamPool) (now : Instant) (method : String)
    (exclude : List String) (draw : Nat) (arith : Rounding := .exact) :
    UpstreamPool × Option Upstream :=
  let measuredUpstreams := measured cfg pool now exclude
  if method = "sendTransaction" ∧ measuredUpstreams ≠ [] then
    applyHysteresis pool method (p50Scores measuredUpstreams arith) cfg.routing.hysteresisMargin
      draw arith
  else
    applyHysteresis pool method (genericCandidates cfg pool now method exclude arith)
      cfg.routing.hysteresisMargin draw arith

/-- The candidates of a call with their scores, on the path that the call takes. -/
def scored (cfg : Config) (pool : UpstreamPool) (now : Instant) (method : String)
    (exclude : List String) (arith : Rounding := .exact) : List (Upstream × Rat) :=
  if method = "sendTransaction" ∧ measured cfg pool now exclude ≠ [] then
    p50Scores (measured cfg pool now exclude) arith
  else genericCandidates cfg pool now method exclude arith

section Choice

variable {arith : Rounding} {cfg : Config} {pool : UpstreamPool} {now : Instant} {method : String}
  {exclude : List String} {draw : Nat} {upstream : Upstream} {score : Rat}

theorem selectForMethod_eq (cfg : Config) (pool : UpstreamPool) (now : Instant)
    (method : String) (exclude : List String) (draw : Nat) (arith : Rounding) :
    selectForMethod cfg pool now method exclude draw arith =
      applyHysteresis pool method (scored cfg pool now method exclude arith)
        cfg.routing.hysteresisMargin draw arith := by
  unfold selectForMethod scored
  dsimp only
  split <;> rfl

/-- The penalty reads the tip and the slot of the upstream. -/
theorem slotLagPenalty_congr {first second : UpstreamPool} {name : String}
    (tip : first.tipSlot = second.tipSlot)
    (slot : (first.cells name).lastSlot = (second.cells name).lastSlot) :
    slotLagPenalty cfg first name arith = slotLagPenalty cfg second name arith := by
  have lag : Lagging cfg first name ↔ Lagging cfg second name := by
    unfold Lagging
    rw [tip, slot]
  simp only [slotLagPenalty, lag]

/-! ### Candidates -/

theorem mem_eligible :
    upstream ∈ eligible cfg pool now exclude ↔
      upstream ∈ cfg.pool ∧ upstream.name ∉ exclude ∧
        pool.isDropped upstream.name now = false := by
  simp [eligible]

theorem mem_measured {p50 : Rat} :
    (upstream, p50) ∈ measured cfg pool now exclude ↔
      upstream ∈ eligible cfg pool now exclude ∧
        pool.stats.sendTxP50 upstream.name = some p50 := by
  simp only [measured, List.mem_filterMap, Option.map_eq_some_iff, Prod.mk.injEq]
  constructor
  · rintro ⟨candidate, member, value, lookup, rfl, rfl⟩
    exact ⟨member, lookup⟩
  · rintro ⟨member, lookup⟩
    exact ⟨upstream, member, p50, lookup, rfl, rfl⟩

theorem mem_genericCandidates :
    (upstream, score) ∈ genericCandidates cfg pool now method exclude arith ↔
      upstream ∈ eligible cfg pool now exclude ∧ 0 < score ∧
        genericScore cfg pool method upstream.name arith = score := by
  simp only [genericCandidates, List.mem_filterMap, Option.ite_none_right_eq_some,
    Option.some.injEq, Prod.mk.injEq]
  constructor
  · rintro ⟨candidate, member, positive, rfl, rfl⟩
    exact ⟨member, positive, rfl⟩
  · rintro ⟨member, positive, rfl⟩
    exact ⟨upstream, member, positive, rfl, rfl⟩

/-- An upstream the router can give a candidate entry to. -/
def Scoreable (cfg : Config) (pool : UpstreamPool) (method upstream : String)
    (arith : Rounding := .exact) : Prop :=
  (method = "sendTransaction" ∧ (pool.stats.sendTxP50 upstream).isSome = true) ∨
    0 < genericScore cfg pool method upstream arith

/-- A candidate is eligible and scoreable. -/
theorem scored_mem
    (member : (upstream, score) ∈ scored cfg pool now method exclude arith) :
    upstream ∈ eligible cfg pool now exclude ∧ Scoreable cfg pool method upstream.name arith := by
  unfold scored at member
  split at member
  · rename_i path
    rw [p50Scores, List.mem_map] at member
    obtain ⟨⟨candidate, p50⟩, entryMember, same⟩ := member
    rw [Prod.mk.injEq] at same
    rw [← same.1]
    have found := mem_measured.mp entryMember
    refine ⟨found.1, Or.inl ⟨path.1, ?_⟩⟩
    rw [found.2]
    rfl
  · have found := mem_genericCandidates.mp member
    refine ⟨found.1, Or.inr ?_⟩
    rw [found.2.2]
    exact found.2.1

theorem scored_ne_nil (member : upstream ∈ eligible cfg pool now exclude)
    (scoreable : Scoreable cfg pool method upstream.name arith) :
    scored cfg pool now method exclude arith ≠ [] := by
  unfold scored
  split
  · rename_i path
    simpa [p50Scores] using path.2
  · rename_i path
    rcases scoreable with ⟨sending, sampled⟩ | positive
    · obtain ⟨p50, lookup⟩ := Option.isSome_iff_exists.mp sampled
      have inMeasured := mem_measured.mpr ⟨member, lookup⟩
      exact absurd ⟨sending, List.ne_nil_of_mem inMeasured⟩ path
    · exact List.ne_nil_of_mem (mem_genericCandidates.mpr ⟨member, positive, rfl⟩)

end Choice

/-! ### The top of a candidate list -/

/-- The fold finds the greatest score. -/
theorem topScore_greatest {candidates : List (Upstream × Rat)} (nonempty : candidates ≠ []) :
    topScore candidates ∈ candidates.map Prod.snd ∧
      ∀ score ∈ candidates.map Prod.snd, score ≤ topScore candidates := by
  apply List.max?_eq_some_iff.mp
  cases candidates with
  | nil => exact absurd rfl nonempty
  | cons first rest => exact List.max?_cons'

theorem topScore_mem {candidates : List (Upstream × Rat)} (nonempty : candidates ≠ []) :
    ∃ upstream, (upstream, topScore candidates) ∈ candidates := by
  obtain ⟨⟨upstream, score⟩, member, same⟩ :=
    List.mem_map.mp (topScore_greatest nonempty).1
  dsimp only at same
  exact ⟨upstream, same ▸ member⟩

theorem le_topScore {candidates : List (Upstream × Rat)} {entry : Upstream × Rat}
    (member : entry ∈ candidates) : entry.2 ≤ topScore candidates :=
  (topScore_greatest (List.ne_nil_of_mem member)).2 entry.2 (List.mem_map_of_mem member)

/-- The fold finds the least p50. -/
theorem bestP50_least {measured : List (Upstream × Rat)} (nonempty : measured ≠ []) :
    bestP50 measured ∈ measured.map Prod.snd ∧
      ∀ p50 ∈ measured.map Prod.snd, bestP50 measured ≤ p50 := by
  apply List.min?_eq_some_iff.mp
  cases measured with
  | nil => exact absurd rfl nonempty
  | cons first rest => exact List.min?_cons'

theorem tiedTop_ne_nil {candidates : List (Upstream × Rat)} (nonempty : candidates ≠ [])
    (arith : Rounding) : tiedTop candidates arith ≠ [] := by
  obtain ⟨upstream, member⟩ := topScore_mem nonempty
  apply List.ne_nil_of_mem (a := (upstream, topScore candidates))
  rw [tiedTop, List.mem_filter]
  refine ⟨member, decide_eq_true ?_⟩
  rw [Rounding.sub, sub_self, Rounding.round_zero, abs_zero]
  exact Rounding.round_pos (by norm_num)

theorem heldLeader_mem {arith : Rounding} {pool : UpstreamPool} {method : String}
    {candidates : List (Upstream × Rat)} {margin : Rat} {leader : Upstream}
    (held : heldLeader pool method candidates margin arith = some leader) :
    ∃ score, (leader, score) ∈ candidates := by
  unfold heldLeader at held
  split at held
  · cases held
  · split at held
    · cases held
    · rename_i _ found
      split at held
      · rw [Option.some_inj] at held
        subst held
        exact ⟨_, List.mem_of_find?_eq_some found⟩
      · cases held

/-! ### What a selection returns and changes -/

/-- Only the leader table can differ after a selection. -/
structure SameButLeader (before after : UpstreamPool) : Prop where
  cells : after.cells = before.cells
  stats : after.stats = before.stats
  tipSlot : after.tipSlot = before.tipSlot

theorem SameButLeader.refl (pool : UpstreamPool) : SameButLeader pool pool := ⟨rfl, rfl, rfl⟩

/-- The three ways a selection ends: no candidate, the held leader, or a new
leader drawn from the tied top. -/
theorem applyHysteresis_cases (pool : UpstreamPool) (method : String)
    (candidates : List (Upstream × Rat)) (margin : Rat) (draw : Nat) (arith : Rounding) :
    (candidates = [] ∧ applyHysteresis pool method candidates margin draw arith = (pool, none)) ∨
    (∃ leader, heldLeader pool method candidates margin arith = some leader ∧
      applyHysteresis pool method candidates margin draw arith = (pool, some leader)) ∨
    (heldLeader pool method candidates margin arith = none ∧
      ∃ chosen score, (chosen, score) ∈ tiedTop candidates arith ∧
        applyHysteresis pool method candidates margin draw arith =
          ({ pool with
              currentLeader := Function.update pool.currentLeader method (some chosen.name) },
            some chosen)) := by
  by_cases empty : candidates = []
  · exact .inl ⟨empty, by rw [empty]; rfl⟩
  · unfold applyHysteresis
    rw [if_neg (by simpa using empty)]
    cases held : heldLeader pool method candidates margin arith with
    | some leader => exact .inr (.inl ⟨leader, rfl, rfl⟩)
    | none =>
        have inRange := Nat.mod_lt draw (List.length_pos_iff.mpr (tiedTop_ne_nil empty arith))
        obtain ⟨⟨chosen, score⟩, lookup⟩ : ∃ entry,
            (tiedTop candidates arith)[draw % (tiedTop candidates arith).length]? = some entry :=
          ⟨_, List.getElem?_eq_getElem inRange⟩
        refine .inr (.inr ⟨rfl, chosen, score, List.mem_of_getElem? lookup, ?_⟩)
        dsimp only
        rw [lookup]

theorem applyHysteresis_sameButLeader (pool : UpstreamPool) (method : String)
    (candidates : List (Upstream × Rat)) (margin : Rat) (draw : Nat) (arith : Rounding) :
    SameButLeader pool (applyHysteresis pool method candidates margin draw arith).1 := by
  rcases applyHysteresis_cases pool method candidates margin draw arith with
    ⟨-, result⟩ | ⟨leader, -, result⟩ | ⟨-, chosen, score, -, result⟩
  · rw [result]
    exact SameButLeader.refl pool
  · rw [result]
    exact SameButLeader.refl pool
  · rw [result]
    exact ⟨rfl, rfl, rfl⟩

theorem selectForMethod_sameButLeader (cfg : Config) (pool : UpstreamPool) (now : Instant)
    (method : String) (exclude : List String) (draw : Nat) (arith : Rounding) :
    SameButLeader pool (selectForMethod cfg pool now method exclude draw arith).1 := by
  rw [selectForMethod_eq]
  exact applyHysteresis_sameButLeader _ _ _ _ _ _

theorem applyHysteresis_nil (pool : UpstreamPool) (method : String) (margin : Rat)
    (draw : Nat) (arith : Rounding) :
    (applyHysteresis pool method [] margin draw arith).2 = none := rfl

/-- A non-empty candidate list always yields one of its upstreams. -/
theorem applyHysteresis_some (pool : UpstreamPool) (method : String)
    {candidates : List (Upstream × Rat)} (margin : Rat) (draw : Nat) (arith : Rounding)
    (nonempty : candidates ≠ []) :
    ∃ upstream score, (upstream, score) ∈ candidates ∧
      (applyHysteresis pool method candidates margin draw arith).2 = some upstream := by
  rcases applyHysteresis_cases pool method candidates margin draw arith with
    ⟨empty, -⟩ | ⟨leader, held, result⟩ | ⟨-, chosen, score, member, result⟩
  · exact absurd empty nonempty
  · obtain ⟨score, member⟩ := heldLeader_mem held
    exact ⟨leader, score, member, by rw [result]⟩
  · exact ⟨chosen, score, List.mem_of_mem_filter member, by rw [result]⟩

section Choice

variable {arith : Rounding} {cfg : Config} {pool : UpstreamPool} {now : Instant} {method : String}
  {exclude : List String} {draw : Nat} {upstream : Upstream}

/-- A selected upstream is a candidate of the call. -/
theorem selectForMethod_scored
    (selected : (selectForMethod cfg pool now method exclude draw arith).2 = some upstream) :
    ∃ score, (upstream, score) ∈ scored cfg pool now method exclude arith := by
  rw [selectForMethod_eq] at selected
  by_cases empty : scored cfg pool now method exclude arith = []
  · rw [empty, applyHysteresis_nil] at selected
    cases selected
  · obtain ⟨chosen, score, member, result⟩ :=
      applyHysteresis_some pool method cfg.routing.hysteresisMargin draw arith empty
    rw [result, Option.some_inj] at selected
    subst selected
    exact ⟨score, member⟩

/-- A selected upstream is eligible and scoreable. -/
theorem selectForMethod_mem
    (selected : (selectForMethod cfg pool now method exclude draw arith).2 = some upstream) :
    upstream ∈ eligible cfg pool now exclude ∧ Scoreable cfg pool method upstream.name arith := by
  obtain ⟨score, member⟩ := selectForMethod_scored selected
  exact scored_mem member

/-- Selection fails exactly when no eligible upstream is scoreable. -/
theorem selectForMethod_eq_none :
    (selectForMethod cfg pool now method exclude draw arith).2 = none ↔
      ∀ upstream ∈ eligible cfg pool now exclude,
        ¬ Scoreable cfg pool method upstream.name arith := by
  constructor
  · intro failed upstream member scoreable
    obtain ⟨chosen, _, _, result⟩ := applyHysteresis_some pool method
      cfg.routing.hysteresisMargin draw arith (scored_ne_nil member scoreable)
    rw [selectForMethod_eq, result] at failed
    cases failed
  · intro unscoreable
    cases selected : (selectForMethod cfg pool now method exclude draw arith).2 with
    | none => rfl
    | some upstream =>
        have found := selectForMethod_mem selected
        exact absurd found.2 (unscoreable upstream found.1)

end Choice

end Disburse
