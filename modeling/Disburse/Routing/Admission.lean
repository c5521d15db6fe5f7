import Disburse.Library.Machine
import Disburse.Routing.Select
import Disburse.Routing.Steadiness

/-!
Owns the loop of `select_and_admit` while everything it reads may change between
its steps: each selection meets any pool, and each upstream answers its request
for admission as it likes.

The loop has no counter. It ends because a selection never returns a name in the
filter, and every refusal puts one more into it.
-/

namespace Disburse

open Disburse.Library

/-- What one round of the loop meets. -/
structure AdmissionRound where
  /-- At the selection. -/
  pool : UpstreamPool
  now : Instant
  draw : Nat
  /-- `Some(is_probe)` when the upstream gives a permit. -/
  tryAdmit : Upstream → Option Bool

structure AdmissionLoop where
  admissionSkips : List String
  /-- The names that were asked for admission, with their answers, in order. -/
  asked : List (String × Option Bool)
  /-- The pool that the last selection left. -/
  selected : Option UpstreamPool
  returned : Option (Option (Upstream × Bool))

namespace AdmissionLoop

def new : AdmissionLoop := ⟨[], [], none, none⟩

/-- One selection, and the request for admission that follows it. -/
def step (cfg : Config) (method : String) (excluded : List String) (loop : AdmissionLoop)
    (round : AdmissionRound) : Option AdmissionLoop :=
  match loop.returned with
  | some _ => none
  | none =>
      match selectForMethod cfg round.pool round.now method (excluded ++ loop.admissionSkips)
          round.draw with
      | (chosen, none) => some { loop with selected := some chosen, returned := some none }
      | (chosen, some upstream) =>
          let answer := round.tryAdmit upstream
          let asked := loop.asked ++ [(upstream.name, answer)]
          match answer with
          | some isProbe =>
              some { loop with
                asked := asked
                selected := some chosen
                returned := some (some (upstream, isProbe)) }
          | none =>
              some { loop with
                admissionSkips := loop.admissionSkips ++ [upstream.name]
                asked := asked
                selected := some chosen }

def machine (cfg : Config) (method : String) (excluded : List String) :
    Machine AdmissionLoop AdmissionRound :=
  { init := new, step := step cfg method excluded }

/-- Upstreams that the next selection may still return. -/
def left (cfg : Config) (excluded : List String) (loop : AdmissionLoop) : Nat :=
  (unfiltered cfg (excluded ++ loop.admissionSkips)).length

/-- The names asked so far refused and are skipped from then on. -/
def refusals (loop : AdmissionLoop) : List (String × Option Bool) :=
  loop.admissionSkips.map fun name => (name, none)

/-- What the loop returned: an upstream that gave a permit after the refusals, and
that the last selection left as the leader. -/
def Returns (method : String) (excluded : List String) (loop : AdmissionLoop) :
    Option (Upstream × Bool) → Prop
  | none => loop.asked = loop.refusals
  | some (upstream, isProbe) =>
      upstream.name ∉ excluded ∧ loop.asked = loop.refusals ++ [(upstream.name, some isProbe)] ∧
        ∃ pool, loop.selected = some pool ∧ pool.currentLeader method = some upstream.name

/-- No name was asked twice, and those that refused are skipped. -/
structure Sound (method : String) (excluded : List String) (loop : AdmissionLoop) : Prop where
  fresh : (loop.asked.map Prod.fst).Nodup
  running : loop.returned = none → loop.asked = loop.refusals
  returns : ∀ result, loop.returned = some result → loop.Returns method excluded result

section Step

variable {cfg : Config} {method : String} {excluded : List String} {loop : AdmissionLoop}

/-- What a selection of the loop returns: a name outside the filter, now the leader. -/
structure Selects (cfg : Config) (method : String) (excluded : List String)
    (loop : AdmissionLoop) (chosen : UpstreamPool) (upstream : Upstream) : Prop where
  included : upstream.name ∉ excluded
  unasked : upstream.name ∉ loop.admissionSkips
  leader : chosen.currentLeader method = some upstream.name
  fewer : (unfiltered cfg (excluded ++ (loop.admissionSkips ++ [upstream.name]))).length <
    loop.left cfg excluded

theorem selects {pool chosen : UpstreamPool} {now : Instant} {draw : Nat} {upstream : Upstream}
    (selection : selectForMethod cfg pool now method (excluded ++ loop.admissionSkips) draw =
      (chosen, some upstream)) : Selects cfg method excluded loop chosen upstream := by
  have picked : (selectForMethod cfg pool now method (excluded ++ loop.admissionSkips) draw).2 =
      some upstream := by
    rw [selection]
  have leader := selectForMethod_leader picked
  rw [selection] at leader
  have candidate := mem_eligible.mp (selectForMethod_mem picked).1
  have outside := candidate.2.1
  rw [List.mem_append, not_or] at outside
  have fewer := unfiltered_snoc_lt candidate.1 candidate.2.1
  rw [List.append_assoc] at fewer
  exact ⟨outside.1, outside.2, leader, fewer⟩

/-- A name that has not been skipped has not been asked. -/
theorem Sound.fresh_snoc (sound : loop.Sound method excluded) (unfinished : loop.returned = none)
    {name : String} (unasked : name ∉ loop.admissionSkips) (answer : Option Bool) :
    ((loop.asked ++ [(name, answer)]).map Prod.fst).Nodup := by
  have names : loop.asked.map Prod.fst = loop.admissionSkips := by
    rw [sound.running unfinished, refusals, List.map_map]
    exact List.map_id _
  have before := sound.fresh
  rw [names] at before
  rw [List.map_append, List.map_singleton, names]
  apply List.nodup_append.mpr
  refine ⟨before, List.nodup_singleton _, fun other member last isLast => ?_⟩
  rintro rfl
  rw [List.mem_singleton.mp isLast] at member
  exact unasked member

/-- An unfinished loop takes the next round: it returns, or it has one upstream
less to choose from. -/
theorem step_spec (round : AdmissionRound) (sound : loop.Sound method excluded)
    (unfinished : loop.returned = none) :
    ∃ next, loop.step cfg method excluded round = some next ∧ next.Sound method excluded ∧
      (next.returned.isSome = true ∨ next.left cfg excluded < loop.left cfg excluded) := by
  have refused := sound.running unfinished
  unfold step
  rw [unfinished]
  cases selection : selectForMethod cfg round.pool round.now method
      (excluded ++ loop.admissionSkips) round.draw with
  | mk chosen picked =>
      cases picked with
      | none =>
          refine ⟨_, rfl, ⟨sound.fresh, fun ended => ?_, fun result found => ?_⟩, .inl rfl⟩
          · cases ended
          · cases found
            exact refused
      | some upstream =>
          have selected := selects selection
          have fresh := sound.fresh_snoc unfinished selected.unasked
          dsimp only
          cases answer : round.tryAdmit upstream with
          | some isProbe =>
              refine ⟨_, rfl, ⟨fresh _, fun ended => ?_, fun result found => ?_⟩, .inl rfl⟩
              · cases ended
              · cases found
                exact ⟨selected.included, congrArg (· ++ _) refused, chosen, rfl, selected.leader⟩
          | none =>
              refine ⟨_, rfl, ⟨fresh _, fun _ => ?_, fun result found => ?_⟩, .inr selected.fewer⟩
              · simp [refused, refusals]
              · dsimp only at found
                cases found

theorem sound_new (method : String) (excluded : List String) : new.Sound method excluded := by
  refine ⟨List.nodup_nil, fun _ => rfl, fun result found => ?_⟩
  cases found

end Step

/-! ### The call that nothing interferes with -/

section Alone

variable {cfg : Config} {method : String} {excluded : List String} {loop : AdmissionLoop}
  (round : AdmissionRound) {chosen : UpstreamPool} {upstream : Upstream}

theorem step_of_none (unfinished : loop.returned = none)
    (selection : selectForMethod cfg round.pool round.now method
      (excluded ++ loop.admissionSkips) round.draw = (chosen, none)) :
    loop.step cfg method excluded round =
      some { loop with selected := some chosen, returned := some none } := by
  simp only [step, unfinished, selection]

theorem step_of_admission (unfinished : loop.returned = none)
    (selection : selectForMethod cfg round.pool round.now method
      (excluded ++ loop.admissionSkips) round.draw = (chosen, some upstream))
    {isProbe : Bool} (admitted : round.tryAdmit upstream = some isProbe) :
    loop.step cfg method excluded round =
      some { loop with
        asked := loop.asked ++ [(upstream.name, some isProbe)]
        selected := some chosen
        returned := some (some (upstream, isProbe)) } := by
  simp only [step, unfinished, selection, admitted]

theorem step_of_refusal (unfinished : loop.returned = none)
    (selection : selectForMethod cfg round.pool round.now method
      (excluded ++ loop.admissionSkips) round.draw = (chosen, some upstream))
    (refused : round.tryAdmit upstream = none) :
    loop.step cfg method excluded round =
      some
        { admissionSkips := loop.admissionSkips ++ [upstream.name]
          asked := loop.asked ++ [(upstream.name, none)]
          selected := some chosen
          returned := none } := by
  simp only [step, unfinished, selection, refused]

end Alone

/-- The loop on a pool of its own is a run in which every round meets what the
one before it left. -/
theorem exec_admitLoop (cfg : Config) (now : Instant) (method : String) (excluded : List String)
    (draws : Nat → Nat) {fuel : Nat} {loop : AdmissionLoop} {pool : UpstreamPool}
    (unfinished : loop.returned = none) (enough : loop.left cfg excluded < fuel) :
    ∃ rounds final, (machine cfg method excluded).execFrom loop rounds = some final ∧
      final.returned =
        some (admitLoop cfg now method excluded draws fuel loop.admissionSkips pool).2 := by
  induction fuel generalizing loop pool with
  | zero => omega
  | succ fuel inductionHypothesis =>
      rw [admitLoop]
      rcases selection : selectForMethod cfg pool now method (excluded ++ loop.admissionSkips)
        (draws loop.admissionSkips.length) with ⟨chosen, _ | upstream⟩
      · let round : AdmissionRound := ⟨pool, now, draws loop.admissionSkips.length, fun _ => none⟩
        have ended := step_of_none round unfinished selection
        refine ⟨[round], { loop with selected := some chosen, returned := some none }, ?_, rfl⟩
        exact (congrArg (Option.bind · _) ended).trans rfl
      · let round : AdmissionRound := ⟨pool, now, draws loop.admissionSkips.length, fun _ =>
          ((chosen.cells upstream.name).tryAdmit now).2⟩
        dsimp only
        rcases admission : (chosen.cells upstream.name).tryAdmit now with ⟨cells, _ | isProbe⟩
        · have refused := step_of_refusal round unfinished selection
            (congrArg Prod.snd admission)
          let next : AdmissionLoop := ⟨loop.admissionSkips ++ [upstream.name],
            loop.asked ++ [(upstream.name, none)], some chosen, none⟩
          have fewer : next.left cfg excluded < fuel :=
            lt_of_lt_of_le (selects selection).fewer (Nat.le_of_lt_succ enough)
          obtain ⟨rounds, final, run, returned⟩ :=
            @inductionHypothesis next (chosen.setCells upstream.name cells) rfl fewer
          exact ⟨round :: rounds, final, (congrArg (Option.bind · _) refused).trans run, returned⟩
        · have admitted := step_of_admission round unfinished selection
            (congrArg Prod.snd admission)
          exact ⟨[round], _, (congrArg (Option.bind · _) admitted).trans rfl, rfl⟩

/-- A `select_and_admit` call that nothing interrupts is a run of the loop. -/
theorem exec_selectAndAdmit (cfg : Config) (pool : UpstreamPool) (now : Instant)
    (method : String) (excluded : List String) (draws : Nat → Nat) :
    ∃ rounds final, (machine cfg method excluded).exec rounds = some final ∧
      final.returned = some (selectAndAdmit cfg pool now method excluded draws).2 := by
  have enough : new.left cfg excluded < cfg.pool.length + 1 :=
    Nat.lt_succ_of_le (List.length_filter_le _ _)
  exact exec_admitLoop cfg now method excluded draws rfl enough

/-! ### Every call -/

/-- Whatever the rounds meet, the loop returns after at most one selection more than
there are upstreams that are not excluded, having asked no name twice; an upstream
it returns is not excluded, admitted the request after all others asked had refused,
and is the leader that the last selection left. -/
theorem selectAndAdmit_ends (cfg : Config) (method : String) (excluded : List String)
    (rounds : Nat → AdmissionRound) :
    ∃ count ≤ (unfiltered cfg excluded).length + 1, ∃ loop result,
      (machine cfg method excluded).exec (Machine.firstOf rounds count) = some loop ∧
        loop.returned = some result ∧ (loop.asked.map Prod.fst).Nodup ∧
        ∀ upstream isProbe, result = some (upstream, isProbe) →
          upstream.name ∉ excluded ∧
            (∃ refused, loop.asked = refused ++ [(upstream.name, some isProbe)] ∧
              ∀ entry ∈ refused, entry.2 = none) ∧
            ∃ pool, loop.selected = some pool ∧
              pool.currentLeader method = some upstream.name := by
  obtain ⟨count, within, loop, run, ended, sound⟩ :=
    (machine cfg method excluded).exists_finished (fun loop => loop.left cfg excluded)
      (fun state round sound unfinished => step_spec round sound
        (Option.not_isSome_iff_eq_none.mp unfinished)) (sound_new method excluded) rounds
  obtain ⟨result, returned⟩ := Option.isSome_iff_exists.mp ended
  have bound : left cfg excluded new = (unfiltered cfg excluded).length := by
    simp [left, new]
  refine ⟨count, bound ▸ within, loop, result, run, returned, sound.fresh, ?_⟩
  rintro upstream isProbe rfl
  obtain ⟨included, asked, leader⟩ := sound.returns _ returned
  refine ⟨included, ⟨loop.refusals, asked, fun entry member => ?_⟩, leader⟩
  obtain ⟨name, -, rfl⟩ := List.mem_map.mp member
  rfl

end AdmissionLoop

end Disburse
