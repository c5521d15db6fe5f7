import Disburse.Library.Unwinding
import Disburse.Routing.Router

/-!
Owns runs of the routing state: records, slot updates and selections in any
order, with the circuits as they are. What a selection for a method sees of
the shared state is `SameFor`; steps on other methods leave it alone, so the
methods do not interfere.
-/

namespace Disburse

open Disburse.Library

/-- One step of the routing state. A slot update is the store of an upstream's
slot or of the tip. -/
inductive RoutingEvent where
  | record (call : RecordCall)
  | storeSlot (name : String) (slot : Nat)
  | storeTip (slot : Nat)
  | select (now : Instant) (method : String) (exclude : List String) (draw : Nat)
deriving DecidableEq, Repr

namespace RoutingEvent

/-- The record and select steps on a method. -/
def isOn (event : RoutingEvent) (method : String) : Bool :=
  match event with
  | .record call => call.method == method
  | .select _ called _ _ => called == method
  | _ => false

/-- The step without the outcome of its tie-break. -/
def undrawn : RoutingEvent → RoutingEvent
  | .select now method exclude _ => .select now method exclude 0
  | event => event

theorem isOn_eq_of_undrawn {left right : RoutingEvent} (same : left.undrawn = right.undrawn)
    (method : String) : left.isOn method = right.isOn method := by
  have kept : ∀ event : RoutingEvent, event.undrawn.isOn method = event.isOn method := by
    intro event
    cases event <;> rfl
  rw [← kept left, same, kept right]

end RoutingEvent

/-- What a selection returns, with the leader of its method afterwards. -/
structure Selection where
  result : Option Upstream
  leader : Option String
deriving DecidableEq, Repr

def UpstreamPool.route (cfg : Config) (pool : UpstreamPool) : RoutingEvent → UpstreamPool
  | .record call =>
      { pool with
        stats := pool.stats.record call.now call.upstream call.method call.latencyMs call.success }
  | .storeSlot name slot => pool.storeSlot name slot
  | .storeTip slot => { pool with tipSlot := slot }
  | .select now method exclude draw => (selectForMethod cfg pool now method exclude draw).1

/-- The selections for `method` that a step makes. -/
def UpstreamPool.selection (cfg : Config) (method : String) (pool : UpstreamPool) :
    RoutingEvent → Option Selection
  | .select now called exclude draw =>
      let (after, result) := selectForMethod cfg pool now called exclude draw
      if called = method then some { result := result, leader := after.currentLeader method }
      else none
  | _ => none

/-- The routing state as the calls for `method` see it. -/
def routing (cfg : Config) (method : String) : Transducer UpstreamPool RoutingEvent Selection where
  step := UpstreamPool.route cfg
  output := UpstreamPool.selection cfg method

/-! ### What a selection sees -/

/-- The parts of the state that a selection for `method` reads or writes. -/
structure SameFor (method : String) (left right : UpstreamPool) : Prop where
  cells : left.cells = right.cells
  tipSlot : left.tipSlot = right.tipSlot
  leader : left.currentLeader method = right.currentLeader method
  alpha : left.stats.alpha = right.stats.alpha
  window : left.stats.window = right.stats.window
  entries : ∀ upstream, left.stats.get upstream method = right.stats.get upstream method
  latencies : method = "sendTransaction" → left.stats.sendTxLatency = right.stats.sendTxLatency

namespace SameFor

variable {method : String} {left right : UpstreamPool}

theorem refl (method : String) (pool : UpstreamPool) : SameFor method pool pool :=
  ⟨rfl, rfl, rfl, rfl, rfl, fun _ => rfl, fun _ => rfl⟩

theorem trans {middle : UpstreamPool} (first : SameFor method left middle)
    (second : SameFor method middle right) : SameFor method left right where
  cells := first.cells.trans second.cells
  tipSlot := first.tipSlot.trans second.tipSlot
  leader := first.leader.trans second.leader
  alpha := first.alpha.trans second.alpha
  window := first.window.trans second.window
  entries := fun upstream => (first.entries upstream).trans (second.entries upstream)
  latencies := fun sending => (first.latencies sending).trans (second.latencies sending)

theorem symm (same : SameFor method left right) : SameFor method right left where
  cells := same.cells.symm
  tipSlot := same.tipSlot.symm
  leader := same.leader.symm
  alpha := same.alpha.symm
  window := same.window.symm
  entries := fun upstream => (same.entries upstream).symm
  latencies := fun sending => (same.latencies sending).symm

variable (same : SameFor method left right) (cfg : Config) (now : Instant)
  (exclude : List String)
include same

theorem eligible_eq : eligible cfg left now exclude = eligible cfg right now exclude := by
  simp only [eligible, UpstreamPool.isDropped, UpstreamPool.circuit, same.cells]

theorem genericScore_eq (upstream : String) :
    genericScore cfg left method upstream = genericScore cfg right method upstream := by
  have penalty : slotLagPenalty cfg left upstream = slotLagPenalty cfg right upstream :=
    slotLagPenalty_congr same.tipSlot (by rw [same.cells])
  simp only [genericScore, recordRating, pairScores, same.entries, penalty]

/-- Calls for the method have the same candidates with the same scores. -/
theorem scored_eq :
    scored cfg left now method exclude = scored cfg right now method exclude := by
  have generic : genericCandidates cfg left now method exclude =
      genericCandidates cfg right now method exclude := by
    simp only [genericCandidates, same.eligible_eq, same.genericScore_eq]
  by_cases sending : method = "sendTransaction"
  · have sampled : measured cfg left now exclude = measured cfg right now exclude := by
      simp only [measured, StatsStore.sendTxP50, same.eligible_eq, same.latencies sending]
    simp only [scored, sampled, generic]
  · simp only [scored, sending, false_and, ↓reduceIte, generic]

theorem heldLeader_eq (candidates : List (Upstream × Rat)) (margin : Rat) :
    heldLeader left method candidates margin = heldLeader right method candidates margin := by
  simp only [heldLeader, same.leader]

/-- A call for the method returns the same and leaves the two states alike. -/
theorem select (draw : Nat) :
    (selectForMethod cfg left now method exclude draw).2 =
        (selectForMethod cfg right now method exclude draw).2 ∧
      SameFor method (selectForMethod cfg left now method exclude draw).1
        (selectForMethod cfg right now method exclude draw).1 := by
  rw [selectForMethod_eq, selectForMethod_eq, same.scored_eq]
  generalize scored cfg right now method exclude = candidates
  have held := same.heldLeader_eq candidates cfg.routing.hysteresisMargin
  unfold applyHysteresis
  split
  · exact ⟨rfl, same⟩
  · rw [held]
    split
    · exact ⟨rfl, same⟩
    · dsimp only
      split
      · exact ⟨rfl, same⟩
      · refine ⟨rfl, { same with leader := ?_ }⟩
        simp only [Function.update_self]

theorem record (call : RecordCall) :
    SameFor method (left.route cfg (.record call)) (right.route cfg (.record call)) where
  cells := same.cells
  tipSlot := same.tipSlot
  leader := same.leader
  alpha := same.alpha
  window := same.window
  entries := by
    intro upstream
    have known := same.entries upstream
    simp only [StatsStore.get, UpstreamPool.route, StatsStore.record] at known ⊢
    by_cases own : (upstream, method) = (call.upstream, call.method)
    · rw [← own, Function.update_self, Function.update_self, known, same.alpha]
    · rw [Function.update_of_ne own, Function.update_of_ne own, known]
  latencies := by
    intro sending
    have known := same.latencies sending
    simp only [UpstreamPool.route, StatsStore.record, known, same.window]

theorem storeSlot (name : String) (slot : Nat) :
    SameFor method (left.storeSlot name slot) (right.storeSlot name slot) :=
  { same with
    cells := by simp only [UpstreamPool.storeSlot, UpstreamPool.setCells, same.cells] }

end SameFor

/-! ### Steps on other methods -/

theorem selectForMethod_leader_other (cfg : Config) (pool : UpstreamPool) (now : Instant)
    {called method : String} (other : method ≠ called) (exclude : List String) (draw : Nat) :
    (selectForMethod cfg pool now called exclude draw).1.currentLeader method =
      pool.currentLeader method := by
  rw [selectForMethod_eq]
  rcases applyHysteresis_cases pool called (scored cfg pool now called exclude)
    cfg.routing.hysteresisMargin draw .exact with
    ⟨-, ended⟩ | ⟨leader, -, ended⟩ | ⟨-, chosen, score, -, ended⟩
  · rw [ended]
  · rw [ended]
  · rw [ended]
    exact Function.update_of_ne other _ _

/-- A record or a selection for one method is invisible to the others. -/
theorem route_invisible (cfg : Config) (pool : UpstreamPool) {called method : String}
    (other : method ≠ called) {event : RoutingEvent} (isOn : event.isOn called = true) :
    SameFor method (pool.route cfg event) pool := by
  cases event with
  | record call =>
      have named : call.method = called := beq_iff_eq.mp isOn
      refine { SameFor.refl method pool with
        alpha := ?_, window := ?_, entries := ?_, latencies := ?_ }
      · rfl
      · rfl
      · intro upstream
        have different : (upstream, method) ≠ (call.upstream, call.method) := by
          rw [named]
          exact fun same => other (congrArg Prod.snd same)
        exact StatsStore.record_methods_other _ _ _ _ _ _ _ different
      · intro sending
        have different : ¬ call.method = "sendTransaction" := by
          rw [named, ← sending]
          exact fun same => other same.symm
        simp only [UpstreamPool.route, StatsStore.record, different, false_and, ↓reduceIte]
  | select now selected exclude draw =>
      have named : selected = called := beq_iff_eq.mp isOn
      subst named
      have kept := selectForMethod_sameButLeader cfg pool now selected exclude draw .exact
      refine { SameFor.refl method pool with
        cells := kept.cells
        tipSlot := kept.tipSlot
        leader := selectForMethod_leader_other cfg pool now other exclude draw
        alpha := ?_, window := ?_, entries := ?_, latencies := ?_ }
      · exact congrArg StatsStore.alpha kept.stats
      · exact congrArg StatsStore.window kept.stats
      · intro upstream
        exact congrArg (fun stats => stats.get upstream method) kept.stats
      · intro _
        exact congrArg StatsStore.sendTxLatency kept.stats
  | storeSlot name slot => cases isOn
  | storeTip slot => cases isOn

/-! ### Noninterference -/

/-- Hiding one method, with what the calls for another one see. -/
theorem routing_unwinding (cfg : Config) {hidden method : String} (other : method ≠ hidden) :
    (routing cfg method).Unwinding (fun event => event.isOn hidden) (SameFor method) where
  silent := by
    intro pool event isOn
    cases event with
    | select now called exclude draw =>
        have named : called = hidden := beq_iff_eq.mp isOn
        have different : called ≠ method := fun same => other (same.symm.trans named)
        simp [routing, UpstreamPool.selection, different]
    | record call => rfl
    | storeSlot name slot => rfl
    | storeTip slot => rfl
  skips := by
    intro left right event same isOn
    exact (route_invisible cfg left other isOn).trans same
  keeps := by
    intro left right event same _
    cases event with
    | record call => exact same.record cfg call
    | storeSlot name slot => exact same.storeSlot name slot
    | storeTip slot => exact { same with tipSlot := rfl }
    | select now called exclude draw =>
        by_cases own : called = method
        · subst own
          exact (same.select cfg now exclude draw).2
        · have invisible (pool : UpstreamPool) :
              SameFor method (pool.route cfg (.select now called exclude draw)) pool :=
            route_invisible cfg pool (Ne.symm own) (beq_self_eq_true called)
          exact (invisible left).trans (same.trans (invisible right).symm)
  answers := by
    intro left right event same _
    cases event with
    | select now called exclude draw =>
        by_cases own : called = method
        · subst own
          obtain ⟨result, after⟩ := same.select cfg now exclude draw
          simp only [routing, UpstreamPool.selection, ↓reduceIte, result, after.leader]
        · simp [routing, UpstreamPool.selection, own]
    | record call => rfl
    | storeSlot name slot => rfl
    | storeTip slot => rfl

/-- Deleting the records and selections of one method from a run leaves what
the selections for another method can return, and the leaders they leave, as
they were, over all tie-breaks. -/
theorem methods_do_not_interfere (cfg : Config) (pool : UpstreamPool)
    (events : List RoutingEvent) (hidden method : String) (other : hidden ≠ method) :
    Transducer.Possible RoutingEvent.undrawn (routing cfg method) pool
        (Transducer.purge (fun event => event.isOn hidden) events) =
      Transducer.Possible RoutingEvent.undrawn (routing cfg method) pool events :=
  Transducer.Unwinding.possible_purge
    (fun _ _ same => RoutingEvent.isOn_eq_of_undrawn same hidden)
    (routing_unwinding cfg (Ne.symm other)) (SameFor.refl method pool) events

/-- Traffic of two methods on the same upstream. -/
def mixedEvents : List RoutingEvent :=
  [.record { now := 0, upstream := "helius", method := "sendTransaction", latencyMs := 900,
             success := true },
    .record { now := 1, upstream := "helius", method := "getSlot", latencyMs := 20,
              success := true },
    .select 2 "sendTransaction" [] 0, .storeSlot "helius" 7, .storeTip 7,
    .select 3 "getSlot" ["triton"] 0]

theorem methods_do_not_interfere_mixed :
    Transducer.Possible RoutingEvent.undrawn (routing .deployment "getSlot")
        (.fromConfig .deployment)
        (Transducer.purge (fun event => event.isOn "sendTransaction") mixedEvents) =
      Transducer.Possible RoutingEvent.undrawn (routing .deployment "getSlot")
        (.fromConfig .deployment) mixedEvents :=
  methods_do_not_interfere .deployment (.fromConfig .deployment) mixedEvents
    "sendTransaction" "getSlot" (by decide)

end Disburse
