import Disburse.Routing.Router

/-!
Owns `select_and_admit`: the loop that selects an upstream and asks it for
admission until one admits the request. The loop of the source has no counter;
here it is given fuel, and `admitLoop_fuel` shows that one round more than
there are upstreams is always enough.
-/

namespace Disburse

open Disburse.Library

/-- The loop, with the names that refused so far. `draws` holds the random
draw of each selection. -/
def admitLoop (cfg : Config) (now : Instant) (method : String) (excluded : List String)
    (draws : Nat → Nat) (fuel : Nat) (admissionSkips : List String) (pool : UpstreamPool)
    (arith : Rounding := .exact) : UpstreamPool × Option (Upstream × Bool) :=
  match fuel with
  | 0 => (pool, none)
  | fuel + 1 =>
      match selectForMethod cfg pool now method (excluded ++ admissionSkips)
          (draws admissionSkips.length) arith with
      | (chosen, none) => (chosen, none)
      | (chosen, some upstream) =>
          match (chosen.cells upstream.name).tryAdmit now with
          | (cells, some isProbe) =>
              (chosen.setCells upstream.name cells, some (upstream, isProbe))
          | (cells, none) =>
              admitLoop cfg now method excluded draws fuel (admissionSkips ++ [upstream.name])
                (chosen.setCells upstream.name cells) arith

def selectAndAdmit (cfg : Config) (pool : UpstreamPool) (now : Instant) (method : String)
    (excluded : List String) (draws : Nat → Nat) (arith : Rounding := .exact) :
    UpstreamPool × Option (Upstream × Bool) :=
  admitLoop cfg now method excluded draws (cfg.pool.length + 1) [] pool arith

/-! ### What a call changes -/

/-- Everything a call can do: it leaves statistics and tip alone, admits at
most one upstream, outside the filter, and touches other cells only by asking
for an admission that was refused. -/
structure AdmitSpec (cfg : Config) (now : Instant) (filter : List String)
    (before after : UpstreamPool) (result : Option (Upstream × Bool)) : Prop where
  stats : after.stats = before.stats
  tipSlot : after.tipSlot = before.tipSlot
  chosen : ∀ upstream isProbe, result = some (upstream, isProbe) →
    upstream ∈ cfg.pool ∧ upstream.name ∉ filter ∧
      (before.cells upstream.name).tryAdmit now = (after.cells upstream.name, some isProbe)
  filtered : ∀ name ∈ filter, after.cells name = before.cells name
  others : ∀ name, (∀ upstream isProbe, result = some (upstream, isProbe) →
      name ≠ upstream.name) →
    after.cells name = before.cells name ∨
      (before.cells name).tryAdmit now = (after.cells name, none)

/-- Selecting without admitting only moves the leader. -/
theorem AdmitSpec.of_selection {cfg : Config} {now : Instant} {filter : List String}
    {before after : UpstreamPool} (same : SameButLeader before after) :
    AdmitSpec cfg now filter before after none where
  stats := same.stats
  tipSlot := same.tipSlot
  chosen := by
    intro upstream isProbe found
    cases found
  filtered := by
    intro name _
    rw [same.cells]
  others := by
    intro name _
    rw [same.cells]
    exact Or.inl rfl

/-- The round in which `upstream` admits the request. -/
theorem AdmitSpec.of_admission {cfg : Config} {now : Instant} {filter : List String}
    {before chosen : UpstreamPool} {upstream : Upstream} {cells : UpstreamCells} {isProbe : Bool}
    (same : SameButLeader before chosen) (member : upstream ∈ cfg.pool)
    (fresh : upstream.name ∉ filter)
    (admitted : (chosen.cells upstream.name).tryAdmit now = (cells, some isProbe)) :
    AdmitSpec cfg now filter before (chosen.setCells upstream.name cells)
      (some (upstream, isProbe)) where
  stats := same.stats
  tipSlot := same.tipSlot
  chosen := by
    intro other probe found
    rw [Option.some_inj, Prod.mk.injEq] at found
    rcases found with ⟨rfl, rfl⟩
    refine ⟨member, fresh, ?_⟩
    rw [UpstreamPool.setCells_cells_self, ← same.cells, admitted]
  filtered := by
    intro name inFilter
    have different : name ≠ upstream.name := fun equal => fresh (equal ▸ inFilter)
    rw [UpstreamPool.setCells_cells_other _ _ _ different, same.cells]
  others := by
    intro name different
    rw [UpstreamPool.setCells_cells_other _ _ _ (different upstream isProbe rfl), same.cells]
    exact Or.inl rfl

/-- A round in which `upstream` refuses, followed by the rest of the loop. -/
theorem AdmitSpec.of_refusal {cfg : Config} {now : Instant} {filter : List String}
    {before chosen after : UpstreamPool} {upstream : Upstream} {cells : UpstreamCells}
    {result : Option (Upstream × Bool)}
    (same : SameButLeader before chosen) (fresh : upstream.name ∉ filter)
    (refused : (chosen.cells upstream.name).tryAdmit now = (cells, none))
    (rest : AdmitSpec cfg now (filter ++ [upstream.name])
      (chosen.setCells upstream.name cells) after result) :
    AdmitSpec cfg now filter before after result where
  stats := by rw [rest.stats, UpstreamPool.setCells_stats, same.stats]
  tipSlot := by rw [rest.tipSlot, UpstreamPool.setCells_tipSlot, same.tipSlot]
  chosen := by
    intro other isProbe found
    obtain ⟨member, outside, admitted⟩ := rest.chosen other isProbe found
    have different : other.name ≠ upstream.name := by
      intro equal
      apply outside
      simp [equal]
    rw [UpstreamPool.setCells_cells_other _ _ _ different, same.cells] at admitted
    exact ⟨member, fun inFilter => outside (List.mem_append_left _ inFilter), admitted⟩
  filtered := by
    intro name inFilter
    have different : name ≠ upstream.name := fun equal => fresh (equal ▸ inFilter)
    rw [rest.filtered name (List.mem_append_left _ inFilter),
      UpstreamPool.setCells_cells_other _ _ _ different, same.cells]
  others := by
    intro name different
    by_cases isRefused : name = upstream.name
    · subst isRefused
      have kept := rest.filtered upstream.name (by simp)
      rw [UpstreamPool.setCells_cells_self] at kept
      right
      rw [kept, ← same.cells, refused]
    · have inRest := rest.others name different
      rw [UpstreamPool.setCells_cells_other _ _ _ isRefused, same.cells] at inRest
      exact inRest

theorem admitLoop_spec (cfg : Config) (now : Instant) (method : String)
    (excluded : List String) (draws : Nat → Nat) (fuel : Nat) (skips : List String)
    (pool : UpstreamPool) (arith : Rounding) :
    AdmitSpec cfg now (excluded ++ skips) pool
      (admitLoop cfg now method excluded draws fuel skips pool arith).1
      (admitLoop cfg now method excluded draws fuel skips pool arith).2 := by
  induction fuel generalizing skips pool with
  | zero => exact .of_selection (.refl pool)
  | succ fuel inductionHypothesis =>
      have same := selectForMethod_sameButLeader cfg pool now method (excluded ++ skips)
        (draws skips.length) arith
      cases selection : selectForMethod cfg pool now method (excluded ++ skips)
        (draws skips.length) arith with
      | mk chosen picked =>
          rw [selection] at same
          cases picked with
          | none =>
              simp only [admitLoop, selection]
              exact .of_selection same
          | some upstream =>
              have found := selectForMethod_mem (by rw [selection] :
                (selectForMethod cfg pool now method (excluded ++ skips)
                  (draws skips.length) arith).2 = some upstream)
              have candidate := mem_eligible.mp found.1
              cases admission : (chosen.cells upstream.name).tryAdmit now with
              | mk cells answer =>
                  cases answer with
                  | none =>
                      simp only [admitLoop, selection, admission]
                      have rest := inductionHypothesis (skips ++ [upstream.name])
                        (chosen.setCells upstream.name cells)
                      rw [← List.append_assoc] at rest
                      exact .of_refusal same candidate.2.1 admission rest
                  | some isProbe =>
                      simp only [admitLoop, selection, admission]
                      exact .of_admission same candidate.1 candidate.2.1 admission

theorem selectAndAdmit_spec (cfg : Config) (pool : UpstreamPool) (now : Instant)
    (method : String) (excluded : List String) (draws : Nat → Nat)
    (arith : Rounding := .exact) :
    AdmitSpec cfg now excluded pool (selectAndAdmit cfg pool now method excluded draws arith).1
      (selectAndAdmit cfg pool now method excluded draws arith).2 := by
  have spec := admitLoop_spec cfg now method excluded draws (cfg.pool.length + 1) [] pool arith
  rw [List.append_nil] at spec
  exact spec

/-- A probe slot that is taken after a call was taken before it, or the call is
the probe. -/
theorem AdmitSpec.probing {cfg : Config} {now : Instant} {filter : List String}
    {before after : UpstreamPool} {result : Option (Upstream × Bool)}
    (spec : AdmitSpec cfg now filter before after result) {name : String}
    (taken : after.circuit name = .halfOpen true) :
    before.circuit name = .halfOpen true ∨
      ∃ upstream, result = some (upstream, true) ∧ upstream.name = name := by
  by_cases chosen : ∃ upstream isProbe, result = some (upstream, isProbe) ∧ upstream.name = name
  · rcases chosen with ⟨upstream, isProbe, found, same⟩
    have admission := (spec.chosen upstream isProbe found).2.2
    rw [same] at admission
    have circuitStep := UpstreamCells.tryAdmit_step (before.cells name) now
    rw [admission] at circuitStep
    change UpstreamCells.AdmitStep _ _ (after.circuit name) at circuitStep
    rw [taken] at circuitStep
    cases isProbe with
    | true => exact Or.inr ⟨upstream, found, same⟩
    | false => exact Or.inl (circuitStep.probing (by simp))
  · have untouched := spec.others name fun upstream isProbe found same =>
      chosen ⟨upstream, isProbe, found, same.symm⟩
    rcases untouched with unchanged | refused
    · left
      unfold UpstreamPool.circuit at taken ⊢
      rw [← unchanged]
      exact taken
    · have circuitStep := UpstreamCells.tryAdmit_step (before.cells name) now
      rw [refused] at circuitStep
      change UpstreamCells.AdmitStep _ _ (after.circuit name) at circuitStep
      rw [taken] at circuitStep
      exact Or.inl (circuitStep.probing (by simp))

/-- A call takes one permit of the upstream it returns and no other. -/
theorem AdmitSpec.permits {cfg : Config} {now : Instant} {filter : List String}
    {before after : UpstreamPool} {result : Option (Upstream × Bool)}
    (spec : AdmitSpec cfg now filter before after result) (name : String) :
    (after.cells name).permits +
        (if (result.map fun entry => entry.1.name) = some name then 1 else 0) =
      (before.cells name).permits := by
  have admission := UpstreamCells.tryAdmit_permits (before.cells name) now
  by_cases chosen : (result.map fun entry => entry.1.name) = some name
  · obtain ⟨⟨upstream, isProbe⟩, found, same⟩ := Option.map_eq_some_iff.mp chosen
    dsimp only at same
    have admitted := (spec.chosen upstream isProbe found).2.2
    rw [same] at admitted
    rw [admitted] at admission
    rw [if_pos chosen]
    exact admission
  · rw [if_neg chosen, Nat.add_zero]
    have untouched := spec.others name fun upstream isProbe found same =>
      chosen (by rw [found, same]; rfl)
    rcases untouched with same | refused
    · rw [same]
    · rw [refused] at admission
      exact admission

/-- A call leaves alone every circuit whose cooldown is running. -/
theorem AdmitSpec.dropped {cfg : Config} {now : Instant} {filter : List String}
    {before after : UpstreamPool} {result : Option (Upstream × Bool)}
    (spec : AdmitSpec cfg now filter before after result) {name : String}
    (dropped : before.isDropped name now = true) : after.circuit name = before.circuit name := by
  have refusal := UpstreamCells.tryAdmit_of_dropped (before.cells name) dropped
  have untouched := spec.others name fun upstream isProbe found same => by
    have admission := (spec.chosen upstream isProbe found).2.2
    rw [← same, refusal] at admission
    cases congrArg Prod.snd admission
  have same : after.cells name = before.cells name := by
    rcases untouched with unchanged | refused
    · exact unchanged
    · rw [refusal, Prod.mk.injEq] at refused
      exact refused.1.symm
  show (after.cells name).circuit = (before.cells name).circuit
  rw [same]

/-! ### Rounds -/

/-- Upstreams that a filter of names still lets through. -/
def unfiltered (cfg : Config) (filter : List String) : List Upstream :=
  cfg.pool.filter fun upstream => !filter.contains upstream.name

theorem mem_unfiltered {cfg : Config} {filter : List String} {upstream : Upstream} :
    upstream ∈ unfiltered cfg filter ↔ upstream ∈ cfg.pool ∧ upstream.name ∉ filter := by
  simp [unfiltered]

/-- Every refusal shortens the list of upstreams left. -/
theorem unfiltered_snoc_lt {cfg : Config} {filter : List String} {upstream : Upstream}
    (member : upstream ∈ cfg.pool) (fresh : upstream.name ∉ filter) :
    (unfiltered cfg (filter ++ [upstream.name])).length < (unfiltered cfg filter).length := by
  have nested : unfiltered cfg (filter ++ [upstream.name]) =
      (unfiltered cfg filter).filter fun other => other.name != upstream.name := by
    unfold unfiltered
    rw [List.filter_filter]
    apply List.filter_congr
    intro other _
    by_cases same : other.name = upstream.name <;> simp [same]
  rw [nested]
  exact List.length_filter_lt_length_iff_exists.mpr
    ⟨upstream, mem_unfiltered.mpr ⟨member, fresh⟩, by simp⟩

/-- Fuel beyond the number of upstreams left changes nothing: the loop ends by
itself. -/
theorem admitLoop_fuel (cfg : Config) (now : Instant) (method : String)
    (excluded : List String) (draws : Nat → Nat) (fuel : Nat) (skips : List String)
    (pool : UpstreamPool) (arith : Rounding)
    (enough : (unfiltered cfg (excluded ++ skips)).length < fuel) :
    admitLoop cfg now method excluded draws (fuel + 1) skips pool arith =
      admitLoop cfg now method excluded draws fuel skips pool arith := by
  induction fuel generalizing skips pool with
  | zero => omega
  | succ fuel inductionHypothesis =>
      rw [admitLoop, admitLoop.eq_def cfg now method excluded draws (fuel + 1)]
      dsimp only
      split
      · rfl
      · rename_i chosen upstream selection
        split
        · rfl
        · have found := selectForMethod_mem (by rw [selection] :
            (selectForMethod cfg pool now method (excluded ++ skips)
              (draws skips.length) arith).2 = some upstream)
          have candidate := mem_eligible.mp found.1
          have shorter := unfiltered_snoc_lt candidate.1 candidate.2.1
          apply inductionHypothesis
          rw [List.append_assoc] at shorter
          omega

end Disburse
