import Disburse.Routing.Hysteresis
import Disburse.Routing.Runs

/-!
Owns what hysteresis is for: while the candidates of a method stay the same and
within the margin of each other, every selection returns the same upstream.
-/

namespace Disburse

open Disburse.Library

theorem Config.pool_eq_of_name {external : External} {cfg : Config} (valid : cfg.Valid external)
    {left right : Upstream} (leftMember : left ∈ cfg.pool) (rightMember : right ∈ cfg.pool)
    (sameName : left.name = right.name) : left = right := by
  have distinct : (cfg.pool.map Upstream.name).Nodup := by
    rw [Config.pool, List.map_map]
    exact valid.distinct
  exact List.inj_on_of_nodup_map distinct leftMember rightMember sameName

/-- Every two scores are within the margin of each other. -/
def Close (margin : Rat) (candidates : List (Upstream × Rat)) : Prop :=
  ∀ left ∈ candidates, ∀ right ∈ candidates, right.2 * (1 - margin) ≤ left.2

/-- The condition on a step: a selection for `method` excludes nothing and finds
the given candidates, close to each other. Other steps are free. -/
def FindsClose (cfg : Config) (method : String) (upstreams : Set Upstream) (pool : UpstreamPool) :
    RoutingEvent → Prop
  | .select now called exclude _ =>
      called = method → exclude = [] ∧
        (∀ upstream, upstream ∈ (scored cfg pool now method []).map Prod.fst ↔
          upstream ∈ upstreams) ∧
        Close cfg.routing.hysteresisMargin (scored cfg pool now method [])
  | _ => True

/-! ### One selection -/

section Selection

variable {pool : UpstreamPool} {method : String} {candidates : List (Upstream × Rat)}
  {margin : Rat}

/-- Among close candidates the remembered leader is held. -/
theorem heldLeader_of_close (close : Close margin candidates) {name : String}
    (remembered : pool.currentLeader method = some name)
    (present : ∃ entry ∈ candidates, entry.1.name = name) :
    ∃ leader, heldLeader pool method candidates margin = some leader ∧ leader.name = name := by
  obtain ⟨entry, member, named⟩ := present
  have nonempty : candidates ≠ [] := List.ne_nil_of_mem member
  obtain ⟨topUpstream, topMember⟩ := topScore_mem nonempty
  cases found : candidates.find? fun entry => entry.1.name == name with
  | none =>
      have absent := List.find?_eq_none.mp found entry member
      exact absurd (beq_iff_eq.mpr named) absent
  | some first =>
      have within := close first (List.mem_of_find?_eq_some found) _ topMember
      have firstNamed : first.1.name = name := by simpa using List.find?_some found
      refine ⟨first.1, ?_, firstNamed⟩
      rw [heldLeader_of_find remembered found]
      exact if_pos within

end Selection

variable {cfg : Config} {method : String}

/-- The upstream selected is the leader afterwards. -/
theorem selectForMethod_leader {pool : UpstreamPool} {now : Instant} {exclude : List String}
    {draw : Nat} {upstream : Upstream}
    (selected : (selectForMethod cfg pool now method exclude draw).2 = some upstream) :
    (selectForMethod cfg pool now method exclude draw).1.currentLeader method =
      some upstream.name := by
  rw [selectForMethod_eq] at selected ⊢
  exact applyHysteresis_leader selected

/-- Close candidates with the leader among them: the leader is returned and stays. -/
theorem selectForMethod_of_close {pool : UpstreamPool} {now : Instant} {name : String}
    (draw : Nat) (close : Close cfg.routing.hysteresisMargin (scored cfg pool now method []))
    (remembered : pool.currentLeader method = some name)
    (present : ∃ entry ∈ scored cfg pool now method [], entry.1.name = name) :
    ∃ upstream, selectForMethod cfg pool now method [] draw = (pool, some upstream) ∧
      upstream.name = name := by
  obtain ⟨leader, held, named⟩ := heldLeader_of_close close remembered present
  refine ⟨leader, ?_, named⟩
  rw [selectForMethod_eq]
  exact applyHysteresis_of_held held draw

/-! ### Runs -/

/-- Steps other than the selections for a method keep its leader. -/
theorem route_leader_other (pool : UpstreamPool) {event : RoutingEvent}
    (unanswered : pool.selection cfg method event = none) :
    (pool.route cfg event).currentLeader method = pool.currentLeader method := by
  cases event with
  | record call => rfl
  | storeSlot name slot => rfl
  | storeTip slot => rfl
  | select now called exclude draw =>
      have other : called ≠ method := by
        rintro rfl
        simp [UpstreamPool.selection] at unanswered
      exact selectForMethod_leader_other cfg pool now (Ne.symm other) exclude draw

theorem selection_eq_some {pool : UpstreamPool} {event : RoutingEvent} {selection : Selection}
    (answered : pool.selection cfg method event = some selection) :
    ∃ now exclude draw, event = .select now method exclude draw ∧
      selection.result = (selectForMethod cfg pool now method exclude draw).2 := by
  cases event with
  | record call => cases answered
  | storeSlot name slot => cases answered
  | storeTip slot => cases answered
  | select now called exclude draw =>
      simp only [UpstreamPool.selection] at answered
      split at answered
      · rename_i own
        subst own
        cases answered
        exact ⟨now, exclude, draw, rfl, rfl⟩
      · cases answered

/-- Every selection for the method along a run returns the same name, or none. -/
def ReturnsOnly (cfg : Config) (method : String) (name : Option String) (pool : UpstreamPool)
    (events : List RoutingEvent) : Prop :=
  ∀ selection ∈ (routing cfg method).outputs pool events,
    selection.result.map Upstream.name = name

theorem returnsOnly_cons {name : Option String} {pool : UpstreamPool} {event : RoutingEvent}
    {rest : List RoutingEvent} :
    ReturnsOnly cfg method name pool (event :: rest) ↔
      (∀ selection, pool.selection cfg method event = some selection →
        selection.result.map Upstream.name = name) ∧
      ReturnsOnly cfg method name (pool.route cfg event) rest := by
  unfold ReturnsOnly
  rw [Transducer.outputs]
  simp only [List.mem_append, or_imp, forall_and, Option.mem_toList]
  rfl

section Runs

variable {upstreams : Set Upstream} {init : UpstreamPool}

/-- Once the leader is a candidate, it is what every close selection returns. -/
theorem returnsOnly_of_leader {name : String} (known : ∃ upstream ∈ upstreams, upstream.name = name)
    {pool : UpstreamPool} {events : List RoutingEvent}
    (steps : ((routing cfg method).toMachine init).EveryStep (FindsClose cfg method upstreams)
      pool events)
    (remembered : pool.currentLeader method = some name) :
    ReturnsOnly cfg method (some name) pool events := by
  induction events generalizing pool with
  | nil =>
      intro selection member
      cases member
  | cons event rest inductionHypothesis =>
      obtain ⟨condition, tail⟩ := Transducer.everyStep_cons.mp steps
      apply returnsOnly_cons.mpr
      cases answered : pool.selection cfg method event with
      | none =>
          refine ⟨fun selection other => ?_, inductionHypothesis tail ?_⟩
          · cases other
          · rw [← remembered]
            exact route_leader_other pool answered
      | some selection =>
          obtain ⟨now, exclude, draw, rfl, result⟩ := selection_eq_some answered
          obtain ⟨rfl, same, close⟩ := condition rfl
          obtain ⟨upstream, member, named⟩ := known
          obtain ⟨entry, entryMember, entryUpstream⟩ := List.mem_map.mp ((same upstream).mpr member)
          have present : ∃ entry ∈ scored cfg pool now method [], entry.1.name = name :=
            ⟨entry, entryMember, by rw [entryUpstream, named]⟩
          obtain ⟨chosen, selected, chosenNamed⟩ :=
            selectForMethod_of_close draw close remembered present
          refine ⟨?_, inductionHypothesis tail ?_⟩
          · intro other found
            rw [← Option.some.inj found, result, selected, Option.map_some, chosenNamed]
          · show (selectForMethod cfg pool now method [] draw).1.currentLeader method = _
            rw [selected, remembered]

/-- Without candidates every selection returns none. -/
theorem returnsOnly_of_empty (empty : ∀ upstream, upstream ∉ upstreams) {pool : UpstreamPool}
    {events : List RoutingEvent}
    (steps : ((routing cfg method).toMachine init).EveryStep (FindsClose cfg method upstreams)
      pool events) :
    ReturnsOnly cfg method none pool events := by
  induction events generalizing pool with
  | nil =>
      intro selection member
      cases member
  | cons event rest inductionHypothesis =>
      obtain ⟨condition, tail⟩ := Transducer.everyStep_cons.mp steps
      refine returnsOnly_cons.mpr ⟨fun selection answered => ?_, inductionHypothesis tail⟩
      obtain ⟨now, exclude, draw, rfl, result⟩ := selection_eq_some answered
      obtain ⟨rfl, same, -⟩ := condition rfl
      have none : scored cfg pool now method [] = [] := by
        apply List.eq_nil_iff_forall_not_mem.mpr
        intro entry member
        exact empty entry.1 ((same entry.1).mp (List.mem_map_of_mem member))
      rw [result, selectForMethod_eq, none, applyHysteresis_nil]
      rfl

/-- The first selection settles what the later ones return. -/
theorem exists_returnsOnly {pool : UpstreamPool} {events : List RoutingEvent}
    (steps : ((routing cfg method).toMachine init).EveryStep (FindsClose cfg method upstreams)
      pool events) :
    ∃ name, ReturnsOnly cfg method name pool events := by
  induction events generalizing pool with
  | nil => exact ⟨none, fun selection member => by cases member⟩
  | cons event rest inductionHypothesis =>
      obtain ⟨condition, tail⟩ := Transducer.everyStep_cons.mp steps
      cases answered : pool.selection cfg method event with
      | none =>
          obtain ⟨name, returns⟩ := inductionHypothesis tail
          refine ⟨name, returnsOnly_cons.mpr ⟨fun selection other => ?_, returns⟩⟩
          rw [answered] at other
          cases other
      | some selection =>
          obtain ⟨now, exclude, draw, rfl, result⟩ := selection_eq_some answered
          obtain ⟨rfl, same, -⟩ := condition rfl
          cases chosen : (selectForMethod cfg pool now method [] draw).2 with
          | none =>
              have unscored : scored cfg pool now method [] = [] := by
                by_contra nonempty
                obtain ⟨upstream, _, _, found⟩ := applyHysteresis_some pool method
                  cfg.routing.hysteresisMargin draw .exact nonempty
                rw [selectForMethod_eq, found] at chosen
                cases chosen
              refine ⟨none, returnsOnly_of_empty (fun upstream member => ?_) steps⟩
              have inScored := (same upstream).mpr member
              rw [unscored] at inScored
              cases inScored
          | some upstream =>
              refine ⟨some upstream.name, returnsOnly_cons.mpr ⟨fun other found => ?_, ?_⟩⟩
              · cases answered.symm.trans found
                rw [result, chosen]
                rfl
              · apply returnsOnly_of_leader ⟨upstream, ?_, rfl⟩ tail
                · exact selectForMethod_leader chosen
                · obtain ⟨score, member⟩ := selectForMethod_scored chosen
                  exact (same upstream).mp (List.mem_map_of_mem member)

/-- Whatever a selection of a validated config returns is an upstream of it. -/
theorem outputs_mem_pool {pool : UpstreamPool} {events : List RoutingEvent} {selection : Selection}
    {upstream : Upstream} (member : selection ∈ (routing cfg method).outputs pool events)
    (returned : selection.result = some upstream) : upstream ∈ cfg.pool := by
  induction events generalizing pool with
  | nil => cases member
  | cons event rest inductionHypothesis =>
      rcases List.mem_append.mp member with now | later
      · obtain ⟨now, exclude, draw, rfl, result⟩ := selection_eq_some (Option.mem_toList.mp now)
        rw [returned] at result
        exact (mem_eligible.mp (selectForMethod_mem result.symm).1).1
      · exact inductionHypothesis later

end Runs

/-- While the candidates of a method stay the same and within the margin of
each other, its selections do not flap: they all return one upstream, whatever
the other steps and the tie-breaks are. -/
theorem selections_steady {upstreams : Set Upstream} {pool : UpstreamPool}
    {events : List RoutingEvent}
    (steps : ((routing cfg method).toMachine pool).EveryStep (FindsClose cfg method upstreams)
      pool events) :
    ∀ first ∈ (routing cfg method).outputs pool events,
      ∀ second ∈ (routing cfg method).outputs pool events,
        first.result.map Upstream.name = second.result.map Upstream.name ∧
          ∀ external, cfg.validate external = .ok () → first.result = second.result := by
  obtain ⟨name, returns⟩ := exists_returnsOnly steps
  intro first firstMember second secondMember
  have names := (returns first firstMember).trans (returns second secondMember).symm
  refine ⟨names, fun external validated => ?_⟩
  have valid := validate_eq_ok.mp validated
  cases firstResult : first.result with
  | none =>
      rw [firstResult, Option.map_none, eq_comm, Option.map_eq_none_iff] at names
      rw [names]
  | some left =>
      rw [firstResult, Option.map_some, eq_comm, Option.map_eq_some_iff] at names
      obtain ⟨right, secondResult, sameName⟩ := names
      have leftMember := outputs_mem_pool firstMember firstResult
      have rightMember := outputs_mem_pool secondMember secondResult
      rw [secondResult, Config.pool_eq_of_name valid leftMember rightMember sameName.symm]

/-- Both upstreams start level and the draw takes the second; then the first
one pulls ahead, within the margin. -/
def driftEvents : List RoutingEvent :=
  [.select 0 "getSlot" [] 1,
    .record { now := 0, upstream := "helius", method := "getSlot", latencyMs := 200,
              success := true },
    .select 0 "getSlot" [] 0]

theorem selections_steady_drift :
    ((routing .deployment "getSlot").outputs (.fromConfig .deployment) driftEvents).length = 2 ∧
    ∀ first ∈ (routing .deployment "getSlot").outputs (.fromConfig .deployment) driftEvents,
      ∀ second ∈ (routing .deployment "getSlot").outputs (.fromConfig .deployment) driftEvents,
        first.result.map Upstream.name = second.result.map Upstream.name ∧
          ∀ external, Config.deployment.validate external = .ok () →
            first.result = second.result := by
  have close (pool : UpstreamPool)
      (all : (scored .deployment pool 0 "getSlot" []).map Prod.fst = Config.deployment.pool)
      (within : Close Config.deployment.routing.hysteresisMargin
        (scored .deployment pool 0 "getSlot" [])) (draw : Nat) :
      FindsClose .deployment "getSlot" { upstream | upstream ∈ Config.deployment.pool } pool
        (.select 0 "getSlot" [] draw) := by
    intro _
    refine ⟨rfl, fun upstream => ?_, within⟩
    rw [all]
    rfl
  refine ⟨by decide +kernel, ?_⟩
  apply selections_steady
  apply Transducer.everyStep_cons.mpr
  refine ⟨close _ (by decide +kernel) (by unfold Close; decide +kernel) 1, ?_⟩
  apply Transducer.everyStep_cons.mpr
  refine ⟨trivial, ?_⟩
  apply Transducer.everyStep_cons.mpr
  exact ⟨close _ (by decide +kernel) (by unfold Close; decide +kernel) 0, trivial⟩

end Disburse
