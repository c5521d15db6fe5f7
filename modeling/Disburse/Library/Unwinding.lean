import Disburse.Library.Machine
import Mathlib.Data.Set.Basic

/-!
Owns systems that answer some of their events, and the unwinding argument for
them: when hidden events neither answer nor change what the answers of the
others depend on, deleting them changes no answer. With a choice left open
inside events, no set of possible answers changes either.
-/

namespace Disburse.Library

universe u v w x

/-- A system in which every event can happen, and some are answered. -/
structure Transducer (σ : Type u) (ε : Type v) (ο : Type w) where
  step : σ → ε → σ
  output : σ → ε → Option ο

namespace Transducer

variable {σ : Type u} {ε : Type v} {ο : Type w} (system : Transducer σ ε ο)

/-- The answers along a list of events. -/
def outputs : σ → List ε → List ο
  | _, [] => []
  | state, event :: rest =>
      (system.output state event).toList ++ outputs (system.step state event) rest

/-- The system without its answers. -/
def toMachine (init : σ) : Machine σ ε where
  init := init
  step := fun state event => some (system.step state event)

variable {system} in
theorem everyStep_cons {C : σ → ε → Prop} {init state : σ} {event : ε} {rest : List ε} :
    (system.toMachine init).EveryStep C state (event :: rest) ↔
      C state event ∧ (system.toMachine init).EveryStep C (system.step state event) rest := by
  constructor
  · intro steps
    exact steps _ rfl
  · intro steps next stepped
    rw [← Option.some.inj stepped]
    exact steps

/-! ### Unwinding -/

/-- The events that are not hidden. -/
def purge (hidden : ε → Bool) (events : List ε) : List ε :=
  events.filter fun event => !hidden event

/-- `Agree` relates states that answer the visible events alike; a hidden event
does not answer and does not leave the relation. -/
structure Unwinding (hidden : ε → Bool) (Agree : σ → σ → Prop) : Prop where
  silent : ∀ state event, hidden event = true → system.output state event = none
  skips : ∀ left right event, Agree left right → hidden event = true →
    Agree (system.step left event) right
  keeps : ∀ left right event, Agree left right → hidden event = false →
    Agree (system.step left event) (system.step right event)
  answers : ∀ left right event, Agree left right → hidden event = false →
    system.output left event = system.output right event

variable {system} {hidden : ε → Bool} {Agree : σ → σ → Prop}

/-- Deleting the hidden events changes no answer. -/
theorem Unwinding.outputs_purge (unwinding : system.Unwinding hidden Agree) {left right : σ}
    (agree : Agree left right) (events : List ε) :
    system.outputs left events = system.outputs right (purge hidden events) := by
  induction events generalizing left right with
  | nil => rfl
  | cons event rest inductionHypothesis =>
      cases visibility : hidden event with
      | true =>
          have tail := inductionHypothesis (unwinding.skips left right event agree visibility)
          rw [outputs, unwinding.silent left event visibility, tail]
          simp [purge, visibility]
      | false =>
          have tail := inductionHypothesis (unwinding.keeps left right event agree visibility)
          rw [outputs, unwinding.answers left right event agree visibility, tail]
          simp [purge, visibility, outputs]

/-! ### Open choices -/

section Choices

variable {δ : Type x} (erase : ε → δ)

/-- The answers that are possible when what `erase` forgets of an event is open. -/
def Possible (system : Transducer σ ε ο) (state : σ) (events : List ε) : Set (List ο) :=
  { answers | ∃ resolved : List ε,
      resolved.map erase = events.map erase ∧ system.outputs state resolved = answers }

variable {erase} (visible : ∀ left right, erase left = erase right → hidden left = hidden right)
include visible

theorem map_purge_congr {resolved events : List ε}
    (same : resolved.map erase = events.map erase) :
    (purge hidden resolved).map erase = (purge hidden events).map erase := by
  induction events generalizing resolved with
  | nil =>
      rw [List.map_nil, List.map_eq_nil_iff] at same
      rw [same]
  | cons event rest inductionHypothesis =>
      obtain ⟨head, tail, rfl, sameHead, sameTail⟩ := List.map_eq_cons_iff.mp same
      have together := inductionHypothesis sameTail
      have alike := visible head event sameHead
      simp only [purge] at together ⊢
      cases visibility : hidden event with
      | true => simpa [visibility, alike] using together
      | false => simpa [visibility, alike, sameHead] using together

/-- Choices for the visible events extend to the hidden ones. -/
theorem exists_unpurged {events resolved : List ε}
    (same : resolved.map erase = (purge hidden events).map erase) :
    ∃ whole : List ε, whole.map erase = events.map erase ∧ purge hidden whole = resolved := by
  induction events generalizing resolved with
  | nil =>
      refine ⟨[], rfl, ?_⟩
      rw [purge, List.filter_nil, List.map_nil, List.map_eq_nil_iff] at same
      rw [same]
      rfl
  | cons event rest inductionHypothesis =>
      cases visibility : hidden event with
      | true =>
          simp only [purge, visibility, Bool.not_true, Bool.false_eq_true, not_false_eq_true,
            List.filter_cons_of_neg] at same
          obtain ⟨whole, erased, purged⟩ := inductionHypothesis same
          refine ⟨event :: whole, by rw [List.map_cons, erased, List.map_cons], ?_⟩
          rw [← purged]
          simp [purge, visibility]
      | false =>
          simp only [purge, visibility, Bool.not_false, List.filter_cons_of_pos,
            List.map_cons] at same
          obtain ⟨head, tail, rfl, sameHead, sameTail⟩ := List.map_eq_cons_iff.mp same
          obtain ⟨whole, erased, purged⟩ := inductionHypothesis sameTail
          have alike := visible head event sameHead
          refine ⟨head :: whole, by rw [List.map_cons, erased, List.map_cons, sameHead], ?_⟩
          rw [← purged]
          simp [purge, alike, visibility]

/-- Deleting the hidden events changes no set of possible answers. -/
theorem Unwinding.possible_purge (unwinding : system.Unwinding hidden Agree) {state : σ}
    (agree : Agree state state) (events : List ε) :
    Possible erase system state (purge hidden events) = Possible erase system state events := by
  ext answers
  constructor
  · rintro ⟨resolved, same, rfl⟩
    obtain ⟨whole, erased, rfl⟩ := exists_unpurged visible same
    exact ⟨whole, erased, unwinding.outputs_purge agree whole⟩
  · rintro ⟨resolved, same, rfl⟩
    exact ⟨purge hidden resolved, map_purge_congr visible same,
      (unwinding.outputs_purge agree resolved).symm⟩

end Choices

end Transducer

end Disburse.Library
