import Disburse.Library.Unwinding
import Mathlib.Order.Basic

/-!
Owns bisimulations of systems whose events carry a time: states that answer
alike from a certain time on.
-/

namespace Disburse.Library

universe u v w x

namespace Transducer

variable {σ : Type u} {ε : Type v} {ο : Type w} {τ : Type x} [Preorder τ]

/-- `Agree clock` relates states that cannot be told apart by an event at `clock` or
later, and that the event leaves related at its own time. -/
structure Bisimulation (system : Transducer σ ε ο) (time : ε → τ)
    (Agree : τ → σ → σ → Prop) : Prop where
  answers : ∀ {clock left right event}, Agree clock left right → clock ≤ time event →
    system.output left event = system.output right event
  keeps : ∀ {clock left right event}, Agree clock left right → clock ≤ time event →
    Agree (time event) (system.step left event) (system.step right event)

/-- Related states answer every later sequence of events alike. -/
theorem Bisimulation.outputs_eq {system : Transducer σ ε ο} {time : ε → τ}
    {Agree : τ → σ → σ → Prop} (bisimulation : system.Bisimulation time Agree) {clock : τ}
    {left right : σ} (agree : Agree clock left right) {events : List ε}
    (ordered : (clock :: events.map time).Pairwise (· ≤ ·)) :
    system.outputs left events = system.outputs right events := by
  induction events generalizing clock left right with
  | nil => rfl
  | cons event rest inductionHypothesis =>
      rw [List.map_cons, List.pairwise_cons] at ordered
      have later : clock ≤ time event := ordered.1 _ List.mem_cons_self
      rw [outputs, outputs, bisimulation.answers agree later,
        inductionHypothesis (bisimulation.keeps agree later) ordered.2]

end Transducer

end Disburse.Library
