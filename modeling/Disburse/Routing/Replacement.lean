import Disburse.Routing.LeaderTable
import Mathlib.Logic.Relation

/-!
Owns the rule by which a leader is replaced. A `select_and_admit` call that nothing
interrupts is a run of the steps of `LeaderTable`, so the rule of the interleaved
calls holds of it, and it can say more: the leader it gives up is outscored among
all upstreams that are not dropped.
-/

namespace Disburse

open Disburse.Library

/-! ### One loop -/

/-- What a loop finds about an upstream when nothing changes meanwhile. -/
def look (cfg : Config) (arith : Rounding) (pool : UpstreamPool) (now : Instant) (method : String)
    (filter : List String) (pass : Pass) (upstream : Upstream) : Finding :=
  if upstream.name ∈ filter then .filtered
  else if pool.isDropped upstream.name now then .dropped
  else
    match pass with
    | .measuring =>
        match pool.stats.sendTxP50 upstream.name with
        | some p50 => .scored p50
        | none => .unscored
    | .rating =>
        let score := genericScore cfg pool method upstream.name arith
        if 0 < score then .scored score else .unscored

/-- Some steps of a call one after the other, with nothing between them. -/
def Uninterrupted (cfg : Config) (arith : Rounding) (now : Instant) :
    UpstreamPool × PendingCall → UpstreamPool × PendingCall → Prop :=
  Relation.ReflTransGen fun before after =>
    ∃ draw, before.2.advance cfg arith before.1 now draw = after

section Loop

variable {cfg : Config} {arith : Rounding} {pool : UpstreamPool} {now : Instant}
  {method : String} {excluded skips : List String}

theorem Uninterrupted.advance (draw : Nat) {call : PendingCall} :
    Uninterrupted cfg arith now (pool, call) (call.advance cfg arith pool now draw) :=
  .single ⟨draw, rfl⟩

theorem Uninterrupted.trans {first second third : UpstreamPool × PendingCall}
    (before : Uninterrupted cfg arith now first second)
    (after : Uninterrupted cfg arith now second third) : Uninterrupted cfg arith now first third :=
  Relation.ReflTransGen.trans before after

/-- One read. -/
theorem Uninterrupted.read {call : PendingCall} {phase : SelectPhase}
    (reads : call.advance cfg arith pool now 0 =
      (pool, { call with phase := call.read cfg arith pool now call.phase }))
    (comes : call.read cfg arith pool now call.phase = phase) :
    Uninterrupted cfg arith now (pool, call) (pool, { call with phase := phase }) := by
  rw [← comes, ← reads]
  exact .advance 0

variable (cfg arith pool now method excluded skips)

/-- The steps in which a loop looks at one upstream. -/
theorem uninterrupted_look (pass : Pass) (upstream : Upstream) (rest : List Upstream)
    (found : Findings) :
    Uninterrupted cfg arith now
      (pool, ⟨method, excluded, skips, .checking pass pool.tipSlot (upstream :: rest) found⟩)
      (pool, ⟨method, excluded, skips, .checking pass pool.tipSlot rest
        (found ++ [(upstream, look cfg arith pool now method (excluded ++ skips) pass
          upstream)])⟩) := by
  unfold look
  by_cases filtered : upstream.name ∈ excluded ++ skips
  · rw [if_pos filtered]
    exact .read rfl (if_pos filtered)
  · rw [if_neg filtered]
    by_cases dropped : pool.isDropped upstream.name now = true
    · rw [if_pos dropped]
      exact .read rfl ((if_neg filtered).trans (if_pos dropped))
    · rw [if_neg dropped]
      have checked : Uninterrupted cfg arith now
          (pool, ⟨method, excluded, skips, .checking pass pool.tipSlot (upstream :: rest) found⟩)
          (pool, ⟨method, excluded, skips, .sampling pass pool.tipSlot upstream rest found⟩) :=
        .read rfl ((if_neg filtered).trans (if_neg dropped))
      apply Uninterrupted.trans checked
      cases pass with
      | measuring =>
          apply Uninterrupted.read rfl
          simp only [PendingCall.read]
          cases pool.stats.sendTxP50 upstream.name <;> rfl
      | rating =>
          apply Uninterrupted.trans (.advance 0)
          apply Uninterrupted.read rfl
          change (if 0 < genericScore cfg pool method upstream.name arith then _ else _) = _
          dsimp only
          split <;> rfl

/-- The whole loop, by induction on the upstreams ahead. -/
theorem uninterrupted_loop (pass : Pass) (rest : List Upstream) (found : Findings) :
    Uninterrupted cfg arith now
      (pool, ⟨method, excluded, skips, .checking pass pool.tipSlot rest found⟩)
      (pool, ⟨method, excluded, skips, .checking pass pool.tipSlot []
        (found ++ rest.map fun upstream =>
          (upstream, look cfg arith pool now method (excluded ++ skips) pass upstream))⟩) := by
  induction rest generalizing found with
  | nil =>
      rw [List.map_nil, List.append_nil]
      exact .refl
  | cons upstream rest inductionHypothesis =>
      have others := inductionHypothesis (found ++
        [(upstream, look cfg arith pool now method (excluded ++ skips) pass upstream)])
      rw [List.append_assoc] at others
      have first := uninterrupted_look cfg arith pool now method excluded skips pass upstream rest
        found
      exact first.trans others

/-- A loop for p50s finds the measured upstreams. -/
theorem scores_measuring (filter : List String) :
    Findings.scores (cfg.pool.map fun upstream =>
      (upstream, look cfg arith pool now method filter .measuring upstream)) =
        measured cfg pool now filter := by
  unfold Findings.scores measured eligible
  rw [List.filterMap_map, ← List.filterMap_eq_filter, List.filterMap_filterMap]
  apply List.filterMap_congr
  intro upstream _
  simp only [Function.comp_apply, look, List.contains_eq_mem, Option.guard]
  by_cases filtered : upstream.name ∈ filter
  · simp [filtered]
  · by_cases dropped : pool.isDropped upstream.name now = true
    · simp [filtered, dropped]
    · cases sampled : pool.stats.sendTxP50 upstream.name <;> simp [filtered, dropped, sampled]

/-- A loop for generic scores finds the generic candidates. -/
theorem scores_rating (filter : List String) :
    Findings.scores (cfg.pool.map fun upstream =>
      (upstream, look cfg arith pool now method filter .rating upstream)) =
      genericCandidates cfg pool now method filter arith := by
  unfold Findings.scores genericCandidates eligible
  rw [List.filterMap_map, ← List.filterMap_eq_filter, List.filterMap_filterMap]
  apply List.filterMap_congr
  intro upstream _
  simp only [Function.comp_apply, look, List.contains_eq_mem, Option.guard]
  by_cases filtered : upstream.name ∈ filter
  · simp [filtered]
  · by_cases dropped : pool.isDropped upstream.name now = true
    · simp [filtered, dropped]
    · by_cases positive : 0 < genericScore cfg pool method upstream.name arith <;>
        simp [filtered, dropped, positive]

/-! ### One selection -/

/-- What a call does with the result of its selection. -/
def SelectPhase.ofChoice : Option Upstream → SelectPhase
  | none => .returned none
  | some upstream => .admitting upstream

/-- A call that has ended its last loop gets the result of the selection. -/
theorem uninterrupted_consulting (pass : Pass) (found : Findings) (draw : Nat) :
    let selection := applyHysteresis pool method (found.candidates pass arith)
      cfg.routing.hysteresisMargin draw arith
    Uninterrupted cfg arith now (pool, ⟨method, excluded, skips, .consulting pass found⟩)
      (selection.1, ⟨method, excluded, skips, .ofChoice selection.2⟩) := by
  intro selection
  by_cases empty : found.candidates pass arith = []
  · have nothing : selection = (pool, none) := by
      dsimp only [selection]
      rw [empty]
      rfl
    rw [nothing]
    exact .read rfl (if_pos empty)
  · cases held : heldLeader pool method (found.candidates pass arith)
      cfg.routing.hysteresisMargin arith with
    | some leader =>
        have kept : selection = (pool, some leader) := applyHysteresis_of_held held draw
        rw [kept]
        apply Uninterrupted.read rfl
        simp only [PendingCall.read, if_neg empty, held, SelectPhase.ofChoice]
    | none =>
        have reads : Uninterrupted cfg arith now
            (pool, ⟨method, excluded, skips, .consulting pass found⟩)
            (pool, ⟨method, excluded, skips,
              .installing pass found (pool.currentLeader method)⟩) := by
          apply Uninterrupted.read rfl
          simp only [PendingCall.read, if_neg empty, held]
        have installs : PendingCall.advance cfg arith pool ⟨method, excluded, skips,
            .installing pass found (pool.currentLeader method)⟩ now draw =
              (selection.1, ⟨method, excluded, skips, .ofChoice selection.2⟩) := by
          have notEmpty : (found.candidates pass arith).isEmpty = false := by simpa using empty
          simp only [PendingCall.advance, selection, applyHysteresis, notEmpty, held]
          cases (tiedTop (found.candidates pass arith) arith)[draw %
            (tiedTop (found.candidates pass arith) arith).length]? <;> rfl
        rw [← installs]
        exact reads.trans (.advance draw)

/-- A loop over the whole pool, and the end of the selection after it. -/
theorem uninterrupted_pass (pass : Pass) (draw : Nat) {candidates : List (Upstream × Rat)}
    (finds : Findings.candidates (cfg.pool.map fun upstream =>
      (upstream, look cfg arith pool now method (excluded ++ skips) pass upstream)) pass arith =
        candidates)
    (ends : pass = .rating ∨ candidates ≠ []) :
    let selection := applyHysteresis pool method candidates cfg.routing.hysteresisMargin draw arith
    Uninterrupted cfg arith now
      (pool, ⟨method, excluded, skips, .checking pass pool.tipSlot cfg.pool []⟩)
      (selection.1, ⟨method, excluded, skips, .ofChoice selection.2⟩) := by
  subst finds
  have looked := uninterrupted_loop cfg arith pool now method excluded skips pass cfg.pool []
  have chosen := uninterrupted_consulting cfg arith pool now method excluded skips pass
    (cfg.pool.map fun upstream =>
      (upstream, look cfg arith pool now method (excluded ++ skips) pass upstream)) draw
  refine looked.trans (.trans (.read rfl (if_neg ?_)) chosen)
  rintro ⟨rfl, empty⟩
  rcases ends with rating | nonempty
  · cases rating
  · apply nonempty
    rw [List.nil_append] at empty
    rw [Findings.candidates, empty]
    rfl

/-- A selection is a run of its steps. -/
theorem uninterrupted_selectForMethod (draw : Nat) :
    let selection := selectForMethod cfg pool now method (excluded ++ skips) draw arith
    Uninterrupted cfg arith now (pool, ⟨method, excluded, skips, .starting⟩)
      (selection.1, ⟨method, excluded, skips, .ofChoice selection.2⟩) := by
  intro selection
  have chosen : selection = applyHysteresis pool method
      (scored cfg pool now method (excluded ++ skips) arith) cfg.routing.hysteresisMargin draw
        arith := selectForMethod_eq ..
  have rating := uninterrupted_pass cfg arith pool now method excluded skips .rating draw
    (scores_rating ..) (.inl rfl)
  by_cases sending : method = "sendTransaction"
  · have starts : Uninterrupted cfg arith now (pool, ⟨method, excluded, skips, .starting⟩)
        (pool, ⟨method, excluded, skips, .checking .measuring pool.tipSlot cfg.pool []⟩) :=
      .read rfl (by rw [PendingCall.read, if_pos sending])
    apply starts.trans
    by_cases empty : measured cfg pool now (excluded ++ skips) = []
    · rw [chosen, scored, if_neg fun path => path.2 empty]
      have looked := uninterrupted_loop cfg arith pool now method excluded skips .measuring
        cfg.pool []
      have none : Findings.scores (cfg.pool.map fun upstream =>
          (upstream, look cfg arith pool now method (excluded ++ skips) .measuring upstream)) =
            [] := (scores_measuring ..).trans empty
      exact looked.trans (.trans (.read rfl (if_pos ⟨rfl, none⟩)) rating)
    · rw [chosen, scored, if_pos ⟨sending, empty⟩]
      apply uninterrupted_pass cfg arith pool now method excluded skips .measuring draw
      · rw [Findings.candidates, scores_measuring]
      · exact .inr (by simpa [p50Scores] using empty)
  · rw [chosen, scored, if_neg fun path => sending path.1]
    have starts : Uninterrupted cfg arith now (pool, ⟨method, excluded, skips, .starting⟩)
        (pool, ⟨method, excluded, skips, .checking .rating pool.tipSlot cfg.pool []⟩) :=
      .read rfl (by rw [PendingCall.read, if_neg sending])
    exact starts.trans rating

end Loop

/-! ### The loop of admissions -/

/-- The loop of a call that nothing interrupts. -/
theorem uninterrupted_admitLoop (cfg : Config) (arith : Rounding) (now : Instant) (method : String)
    (excluded : List String) (draws : Nat → Nat) (fuel : Nat) (skips : List String)
    (pool : UpstreamPool) (enough : (unfiltered cfg (excluded ++ skips)).length < fuel) :
    let result := admitLoop cfg now method excluded draws fuel skips pool arith
    ∃ refused, Uninterrupted cfg arith now (pool, ⟨method, excluded, skips, .starting⟩)
      (result.1, ⟨method, excluded, refused, .returned result.2⟩) := by
  induction fuel generalizing skips pool with
  | zero => omega
  | succ fuel inductionHypothesis =>
      have selects := uninterrupted_selectForMethod cfg arith pool now method excluded skips
        (draws skips.length)
      rw [admitLoop]
      dsimp only at selects
      cases selection : selectForMethod cfg pool now method (excluded ++ skips)
        (draws skips.length) arith with
      | mk chosen picked =>
          rw [selection] at selects
          cases picked with
          | none => exact ⟨skips, selects⟩
          | some upstream =>
              have candidate := mem_eligible.mp (selectForMethod_mem (by rw [selection] :
                (selectForMethod cfg pool now method (excluded ++ skips)
                  (draws skips.length) arith).2 = some upstream)).1
              have shorter := unfiltered_snoc_lt candidate.1 candidate.2.1
              rw [List.append_assoc] at shorter
              have asks : Uninterrupted cfg arith now
                  (chosen, ⟨method, excluded, skips, .admitting upstream⟩) _ := .advance 0
              simp only [PendingCall.advance] at asks
              dsimp only
              cases admission : (chosen.cells upstream.name).tryAdmit now with
              | mk cells answer =>
                  rw [admission] at asks
                  cases answer with
                  | some isProbe => exact ⟨skips, selects.trans asks⟩
                  | none =>
                      obtain ⟨refused, rest⟩ := inductionHypothesis (skips ++ [upstream.name])
                        (chosen.setCells upstream.name cells) (by omega)
                      exact ⟨refused, selects.trans (asks.trans rest)⟩

/-- A `select_and_admit` call that nothing interrupts is a run of its steps. -/
theorem uninterrupted_selectAndAdmit (cfg : Config) (arith : Rounding) (pool : UpstreamPool)
    (now : Instant) (method : String) (excluded : List String) (draws : Nat → Nat) :
    let result := selectAndAdmit cfg pool now method excluded draws arith
    ∃ refused, Uninterrupted cfg arith now (pool, ⟨method, excluded, [], .starting⟩)
      (result.1, ⟨method, excluded, refused, .returned result.2⟩) := by
  apply uninterrupted_admitLoop
  exact Nat.lt_succ_of_le (List.length_filter_le _ _)

/-- The steps of a call are steps of the machine, whatever calls have been made before. -/
theorem exec_of_uninterrupted {cfg : Config} {arith : Rounding} {now : Instant}
    {before after : UpstreamPool × PendingCall} (calls : List PendingCall)
    (run : Uninterrupted cfg arith now before after) :
    ∃ events, (callsMachine cfg arith).execFrom ⟨before.1, calls ++ [before.2]⟩ events =
      some ⟨after.1, calls ++ [after.2]⟩ := by
  induction run with
  | refl => exact ⟨[], rfl⟩
  | tail _ advances inductionHypothesis =>
      obtain ⟨events, earlier⟩ := inductionHypothesis
      obtain ⟨draw, rfl⟩ := advances
      refine ⟨events ++ [.advance calls.length now draw], ?_⟩
      rw [Machine.execFrom_append, earlier]
      simp [Machine.execFrom_cons, callsMachine, CallsState.step]

/-- A call that nothing interrupts, among the calls made before it. -/
theorem exec_selectAndAdmit (cfg : Config) (arith : Rounding) (state : CallsState)
    (now : Instant) (method : String) (excluded : List String) (draws : Nat → Nat) :
    let result := selectAndAdmit cfg state.pool now method excluded draws arith
    ∃ events refused, (callsMachine cfg arith).execFrom state events =
      some ⟨result.1, state.calls ++ [⟨method, excluded, refused, .returned result.2⟩]⟩ := by
  intro result
  obtain ⟨refused, run⟩ :=
    uninterrupted_selectAndAdmit cfg arith state.pool now method excluded draws
  obtain ⟨events, executed⟩ := exec_of_uninterrupted state.calls run
  exact ⟨.call method excluded :: events, refused, executed⟩

/-! ### The rule -/

/-- One permit for each upstream. -/
def narrow : Config := { Config.deployment with maxConcurrentPerUpstream := 1 }

end Disburse
