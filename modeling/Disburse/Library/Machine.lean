import Mathlib.Algebra.GroupWithZero.Nat
import Mathlib.Data.List.Basic
import Mathlib.Data.Option.Basic

/-!
Owns machines with an executable step function, the runs of such a machine,
and the rules that carry a property of single steps to every state of a run.

A disabled event ends the run there: `Throughout` and `EveryStep` speak about
the states and the steps that are actually executed. The rule
`throughout_iff_everyStep` is the one for properties that some steps break: it
says that a run stays inside the property exactly when it takes none of them.
-/

namespace Disburse.Library

universe u v w v'

/-- An initial state and a step function; `step state event` is `none` when
the event cannot happen in that state. -/
structure Machine (σ : Type u) (ε : Type v) where
  init : σ
  step : σ → ε → Option σ

namespace Machine

variable {σ : Type u} {ε : Type v} (machine : Machine σ ε)

/-- The state after a list of events, `none` when one of them is disabled. -/
def execFrom : σ → List ε → Option σ
  | state, [] => some state
  | state, event :: rest => (machine.step state event).bind fun next => execFrom next rest

/-- The state after a list of events from the initial state. -/
def exec (events : List ε) : Option σ :=
  machine.execFrom machine.init events

/-- States that some run reaches. -/
def Reachable (state : σ) : Prop :=
  ∃ events, machine.exec events = some state

/-- `P` holds in the first state and after every executed event. -/
def Throughout (P : σ → Prop) : σ → List ε → Prop
  | state, [] => P state
  | state, event :: rest =>
      P state ∧ ∀ next, machine.step state event = some next → Throughout P next rest

/-- Every executed event meets the condition `C` on the state it runs in. -/
def EveryStep (C : σ → ε → Prop) : σ → List ε → Prop
  | _, [] => True
  | state, event :: rest =>
      ∀ next, machine.step state event = some next →
        C state event ∧ EveryStep C next rest

/-- Conditions that can be checked on one step can be checked on a run. -/
instance EveryStep.decidable {C : σ → ε → Prop} [∀ state event, Decidable (C state event)] :
    ∀ (state : σ) (events : List ε), Decidable (machine.EveryStep C state events)
  | _, [] => isTrue trivial
  | state, event :: rest =>
      match stepped : machine.step state event with
      | none => isTrue fun next found => by
          rw [stepped] at found
          cases found
      | some next =>
          have := EveryStep.decidable (C := C) next rest
          decidable_of_iff (C state event ∧ machine.EveryStep C next rest) <| by
            constructor
            · intro holds other found
              rw [stepped, Option.some_inj] at found
              exact found ▸ holds
            · intro holds
              exact holds next stepped

@[simp] theorem execFrom_nil (state : σ) : machine.execFrom state [] = some state := rfl

theorem execFrom_cons (state : σ) (event : ε) (rest : List ε) :
    machine.execFrom state (event :: rest) =
      (machine.step state event).bind fun next => machine.execFrom next rest := rfl

theorem execFrom_append (state : σ) (first second : List ε) :
    machine.execFrom state (first ++ second) =
      (machine.execFrom state first).bind fun next => machine.execFrom next second := by
  induction first generalizing state with
  | nil => rfl
  | cons event rest inductionHypothesis =>
      simp only [List.cons_append, execFrom_cons, Option.bind_assoc, inductionHypothesis]

theorem exec_snoc {events : List ε} {state : σ} (reached : machine.exec events = some state)
    (event : ε) : machine.exec (events ++ [event]) = machine.step state event := by
  unfold exec at reached ⊢
  rw [execFrom_append, reached, Option.bind_some, execFrom_cons]
  cases machine.step state event <;> rfl

variable {machine} in
theorem Reachable.step {state next : σ} {event : ε} (reached : machine.Reachable state)
    (stepped : machine.step state event = some next) : machine.Reachable next := by
  obtain ⟨events, run⟩ := reached
  exact ⟨events ++ [event], by rw [machine.exec_snoc run, stepped]⟩

variable {machine} in
theorem Reachable.run {state final : σ} {events : List ε} (reached : machine.Reachable state)
    (run : machine.execFrom state events = some final) : machine.Reachable final := by
  obtain ⟨before, first⟩ := reached
  refine ⟨before ++ events, ?_⟩
  unfold exec at first ⊢
  rw [execFrom_append, first, Option.bind_some, run]

/-! ### Invariants -/

variable {machine} in
theorem invariant_execFrom {I : σ → Prop}
    (preserved : ∀ state event next, I state → machine.step state event = some next → I next)
    {state final : σ} {events : List ε} (start : I state)
    (run : machine.execFrom state events = some final) : I final := by
  induction events generalizing state with
  | nil =>
      rw [execFrom_nil, Option.some_inj] at run
      exact run ▸ start
  | cons event rest inductionHypothesis =>
      rw [execFrom_cons, Option.bind_eq_some_iff] at run
      obtain ⟨next, stepped, tail⟩ := run
      exact inductionHypothesis (preserved state event next start stepped) tail

variable {machine} in
/-- A property of the initial state that every step keeps holds in every
reachable state. -/
theorem Reachable.invariant {I : σ → Prop} (start : I machine.init)
    (preserved : ∀ state event next, I state → machine.step state event = some next → I next)
    {state : σ} (reached : machine.Reachable state) : I state := by
  obtain ⟨events, run⟩ := reached
  exact invariant_execFrom preserved start run

variable {machine} in
/-- A view of the states under which every step is a step of another machine
or invisible takes reachable states to reachable states. -/
theorem Reachable.view {τ : Type w} {δ : Type v'} (abstract : Machine τ δ) (view : σ → τ)
    (start : view machine.init = abstract.init)
    (simulates : ∀ state event next, machine.step state event = some next →
      view next = view state ∨ ∃ seen, abstract.step (view state) seen = some (view next))
    {state : σ} (reached : machine.Reachable state) : abstract.Reachable (view state) := by
  apply reached.invariant (I := fun state => abstract.Reachable (view state))
  · exact ⟨[], congrArg some start.symm⟩
  · intro before event next viewed stepped
    rcases simulates before event next stepped with same | ⟨seen, taken⟩
    · rw [same]
      exact viewed
    · exact viewed.step taken

/-! ### Termination -/

/-- The first events of an endless stream. -/
def firstOf (events : Nat → ε) (count : Nat) : List ε := (List.range count).map events

theorem firstOf_succ (events : Nat → ε) (count : Nat) :
    firstOf events (count + 1) = events 0 :: firstOf (fun place => events (place + 1)) count := by
  rw [firstOf, List.range_succ_eq_map, List.map_cons, List.map_map]
  rfl

/-- When every unfinished state can take every event, and a step that does not
finish lowers a measure, the machine finishes on every stream of events. -/
theorem exists_finished {I finished : σ → Prop} (measure : σ → Nat)
    (lowers : ∀ state event, I state → ¬ finished state →
      ∃ next, machine.step state event = some next ∧ I next ∧
        (finished next ∨ measure next < measure state))
    {state : σ} (start : I state) (events : Nat → ε) :
    ∃ count ≤ measure state + 1, ∃ final,
      machine.execFrom state (firstOf events count) = some final ∧ finished final ∧ I final := by
  generalize bound : measure state = limit
  induction limit using Nat.strongRecOn generalizing state events with
  | ind limit inductionHypothesis =>
      by_cases done : finished state
      · exact ⟨0, Nat.zero_le _, state, rfl, done, start⟩
      · obtain ⟨next, stepped, kept, progress⟩ := lowers state (events 0) start done
        have first : ∀ count, machine.execFrom state (firstOf events (count + 1)) =
            machine.execFrom next (firstOf (fun place => events (place + 1)) count) := by
          intro count
          rw [firstOf_succ, execFrom_cons, stepped, Option.bind_some]
        rcases progress with nextDone | lower
        · exact ⟨1, Nat.succ_le_succ (Nat.zero_le _), next, first 0, nextDone, kept⟩
        · rw [bound] at lower
          obtain ⟨count, within, final, run, ended, holds⟩ :=
            inductionHypothesis (measure next) lower kept (fun place => events (place + 1)) rfl
          refine ⟨count + 1, ?_, final, (first count).trans run, ended, holds⟩
          omega

/-! ### Properties of a run -/

variable {machine} in
theorem Throughout.mono {P Q : σ → Prop} (weaken : ∀ state, P state → Q state)
    {state : σ} {events : List ε} (holds : machine.Throughout P state events) :
    machine.Throughout Q state events := by
  induction events generalizing state with
  | nil => exact weaken state holds
  | cons event rest inductionHypothesis =>
      exact ⟨weaken state holds.1, fun next stepped =>
        inductionHypothesis (holds.2 next stepped)⟩

variable {machine} in
theorem Throughout.holds {P : σ → Prop} {state : σ} {events : List ε}
    (throughout : machine.Throughout P state events) : P state := by
  cases events with
  | nil => exact throughout
  | cons _ _ => exact throughout.1

/-- Steps that meet `C` keep `P`, with an invariant `I` that every step keeps
while `P` holds: a run of such steps stays inside `P`. -/
theorem throughout_of_everyStep {I P : σ → Prop} {C : σ → ε → Prop}
    (preserved : ∀ state event next, I state → P state → C state event →
      machine.step state event = some next → I next ∧ P next)
    {state : σ} {events : List ε} (start : I state) (holds : P state)
    (steps : machine.EveryStep C state events) :
    machine.Throughout P state events := by
  induction events generalizing state with
  | nil => exact holds
  | cons event rest inductionHypothesis =>
      refine ⟨holds, fun next stepped => ?_⟩
      obtain ⟨condition, tail⟩ := steps next stepped
      obtain ⟨kept, keeps⟩ := preserved state event next start holds condition stepped
      exact inductionHypothesis kept keeps tail

/-- The exact form: when a step out of `P` stays in `P` exactly if it meets
`C`, a run stays in `P` exactly if all its steps meet `C`. -/
theorem throughout_iff_everyStep {I P : σ → Prop} {C : σ → ε → Prop}
    (invariant : ∀ state event next, I state → P state → C state event →
      machine.step state event = some next → I next)
    (exact : ∀ state event next, I state → P state →
      machine.step state event = some next → (P next ↔ C state event))
    {state : σ} {events : List ε} (start : I state) (holds : P state) :
    machine.Throughout P state events ↔ machine.EveryStep C state events := by
  constructor
  · intro throughout
    induction events generalizing state with
    | nil => trivial
    | cons event rest inductionHypothesis =>
        intro next stepped
        have tail := throughout.2 next stepped
        have condition := (exact state event next start holds stepped).mp tail.holds
        exact ⟨condition, inductionHypothesis
          (invariant state event next start holds condition stepped) tail.holds tail⟩
  · intro steps
    refine throughout_of_everyStep machine (I := I)
      (fun before event next kept inside condition stepped =>
      ⟨invariant before event next kept inside condition stepped,
        (exact before event next kept inside stepped).mpr condition⟩) start holds steps

/-- What a step needs to stay inside a property holds of every step of a run that
stays inside it. -/
theorem everyStep_of_throughout {P : σ → Prop} {C : σ → ε → Prop}
    (needed : ∀ state event next, P state → P next → machine.step state event = some next →
      C state event)
    {state : σ} {events : List ε} (throughout : machine.Throughout P state events) :
    machine.EveryStep C state events := by
  induction events generalizing state with
  | nil => trivial
  | cons event rest inductionHypothesis =>
      intro next stepped
      have tail := throughout.2 next stepped
      exact ⟨needed state event next throughout.1 tail.holds stepped, inductionHypothesis tail⟩

/-- A property of single steps, from an invariant of the states they start in. -/
theorem everyStep_of_invariant {I : σ → Prop} {C D : σ → ε → Prop}
    (preserved : ∀ state event next, I state → C state event →
      machine.step state event = some next → I next ∧ D state event)
    {state : σ} {events : List ε} (start : I state)
    (steps : machine.EveryStep C state events) :
    machine.EveryStep D state events := by
  induction events generalizing state with
  | nil => trivial
  | cons event rest inductionHypothesis =>
      intro next stepped
      obtain ⟨condition, tail⟩ := steps next stepped
      obtain ⟨kept, holds⟩ := preserved state event next start condition stepped
      exact ⟨holds, inductionHypothesis kept tail⟩

theorem everyStep_trivial (state : σ) (events : List ε) :
    machine.EveryStep (fun _ _ => True) state events := by
  induction events generalizing state with
  | nil => trivial
  | cons event rest inductionHypothesis =>
      intro next _
      exact ⟨trivial, inductionHypothesis next⟩

/-- The sum of `weight` over the executed steps. -/
def tally (weight : σ → ε → Nat) : σ → List ε → Nat
  | _, [] => 0
  | state, event :: rest =>
      match machine.step state event with
      | none => 0
      | some next => weight state event + tally weight next rest

/-- A quantity to which every step adds its weight grows by the tally. -/
theorem execFrom_tally (amount : σ → Int) (weight : σ → ε → Nat)
    (adds : ∀ state event next, machine.step state event = some next →
      amount next = amount state + weight state event)
    {state final : σ} {events : List ε} (run : machine.execFrom state events = some final) :
    amount final = amount state + machine.tally weight state events := by
  induction events generalizing state with
  | nil =>
      rw [execFrom_nil, Option.some_inj] at run
      simp [tally, run]
  | cons event rest inductionHypothesis =>
      rw [execFrom_cons, Option.bind_eq_some_iff] at run
      obtain ⟨next, stepped, tail⟩ := run
      have first := adds state event next stepped
      have others := inductionHypothesis tail
      rw [tally, stepped]
      dsimp only
      omega

variable {machine} in
theorem tally_eq_zero_iff {weight : σ → ε → Nat} {state : σ} {events : List ε} :
    machine.tally weight state events = 0 ↔
      machine.EveryStep (fun state event => weight state event = 0) state events := by
  induction events generalizing state with
  | nil => exact iff_of_true rfl trivial
  | cons event rest inductionHypothesis =>
      rw [tally, EveryStep]
      cases machine.step state event with
      | none => simp
      | some next => simp [inductionHypothesis]

/-- Weights that depend on the event alone add up over the list of events. -/
theorem tally_of_execFrom (weight : ε → Nat) {state final : σ} {events : List ε}
    (run : machine.execFrom state events = some final) :
    machine.tally (fun _ event => weight event) state events = (events.map weight).sum := by
  induction events generalizing state with
  | nil => rfl
  | cons event rest inductionHypothesis =>
      rw [execFrom_cons, Option.bind_eq_some_iff] at run
      obtain ⟨next, stepped, tail⟩ := run
      rw [tally, stepped, List.map_cons, List.sum_cons, ← inductionHypothesis tail]

variable {machine} in
theorem everyStep_forall {ι : Type w} {C : ι → σ → ε → Prop} {state : σ} {events : List ε} :
    (∀ index, machine.EveryStep (C index) state events) ↔
      machine.EveryStep (fun state event => ∀ index, C index state event) state events := by
  induction events generalizing state with
  | nil => exact iff_of_true (fun _ => trivial) trivial
  | cons event rest inductionHypothesis =>
      constructor
      · intro each next stepped
        exact ⟨fun index => (each index next stepped).1,
          inductionHypothesis.mp fun index => (each index next stepped).2⟩
      · intro all index next stepped
        exact ⟨(all next stepped).1 index, inductionHypothesis.mpr (all next stepped).2 index⟩

end Machine

end Disburse.Library
