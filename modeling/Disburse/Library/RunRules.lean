import Disburse.Library.Machine
import Mathlib.Data.List.Induction

/-!
Owns the rules about a run as a whole: which step brought a fact about, which
steps came one after another, what its steps put out and cost, what runs of
allowed events keep and reach, and machines each of whose steps is a run of
another machine.
-/

namespace Disburse.Library.Machine

universe u v w v'

variable {σ : Type u} {ε : Type v} {machine : Machine σ ε}

/-! ### Causes -/

/-- Some executed event meets the condition `C` on the state it runs in. -/
def SomeStep (machine : Machine σ ε) (C : σ → ε → Prop) : σ → List ε → Prop
  | _, [] => False
  | state, event :: rest =>
      ∃ next, machine.step state event = some next ∧
        (C state event ∨ SomeStep machine C next rest)

theorem SomeStep.mono {C D : σ → ε → Prop} (weaken : ∀ state event, C state event → D state event)
    {state : σ} {events : List ε} (some : machine.SomeStep C state events) :
    machine.SomeStep D state events := by
  induction events generalizing state with
  | nil => exact some
  | cons event rest inductionHypothesis =>
      rcases some with ⟨next, stepped, here | later⟩
      · exact ⟨next, stepped, Or.inl (weaken state event here)⟩
      · exact ⟨next, stepped, Or.inr (inductionHypothesis later)⟩

/-- What happens in the first part of a run happens in it. -/
theorem SomeStep.append {C : σ → ε → Prop} {state : σ} {first : List ε}
    (some : machine.SomeStep C state first) (second : List ε) :
    machine.SomeStep C state (first ++ second) := by
  induction first generalizing state with
  | nil => exact False.elim some
  | cons event rest inductionHypothesis =>
      rcases some with ⟨next, stepped, here | later⟩
      · exact ⟨next, stepped, Or.inl here⟩
      · exact ⟨next, stepped, Or.inr (inductionHypothesis later)⟩

/-- What a step is about can be taken out of the run. -/
theorem SomeStep.exists_about {ι : Type w} {C : ι → σ → ε → Prop} {Q : ι → Prop} {state : σ}
    {events : List ε}
    (some : machine.SomeStep (fun state event => ∃ index, Q index ∧ C index state event) state
      events) : ∃ index, Q index ∧ machine.SomeStep (C index) state events := by
  induction events generalizing state with
  | nil => exact False.elim some
  | cons event rest inductionHypothesis =>
      rcases some with ⟨next, stepped, ⟨index, about, here⟩ | later⟩
      · exact ⟨index, about, next, stepped, Or.inl here⟩
      · obtain ⟨index, about, found⟩ := inductionHypothesis later
        exact ⟨index, about, next, stepped, Or.inr found⟩

theorem someStep_snoc {C : σ → ε → Prop} {start state next : σ} {events : List ε} {event : ε}
    (run : machine.execFrom start events = some state)
    (stepped : machine.step state event = some next) (condition : C state event) :
    machine.SomeStep C start (events ++ [event]) := by
  induction events generalizing start with
  | nil =>
      rw [execFrom_nil, Option.some_inj] at run
      exact ⟨next, run ▸ stepped, Or.inl (run ▸ condition)⟩
  | cons first rest inductionHypothesis =>
      rw [execFrom_cons, Option.bind_eq_some_iff] at run
      obtain ⟨after, taken, tail⟩ := run
      exact ⟨after, taken, Or.inr (inductionHypothesis tail)⟩

/-- The run cut before a step that meets the condition. -/
theorem SomeStep.exists_split {C : σ → ε → Prop} {state : σ} {events : List ε}
    (some : machine.SomeStep C state events) :
    ∃ before event after middle, events = before ++ event :: after ∧
      machine.execFrom state before = .some middle ∧ C middle event := by
  induction events generalizing state with
  | nil => exact False.elim some
  | cons event rest inductionHypothesis =>
      rcases some with ⟨next, stepped, here | later⟩
      · exact ⟨[], event, rest, state, rfl, rfl, here⟩
      · obtain ⟨before, found, after, middle, rfl, run, condition⟩ := inductionHypothesis later
        refine ⟨event :: before, found, after, middle, rfl, ?_, condition⟩
        rw [execFrom_cons, stepped, Option.bind_some, run]

variable (machine) in
/-- Runs by their last step: what holds of the initial state, and of every state
that a step of a run reaches, holds of every run. -/
theorem exec_induction {P : List ε → σ → Prop} (start : P [] machine.init)
    (extend : ∀ events state event next, machine.exec events = some state → P events state →
      machine.step state event = some next → P (events ++ [event]) next)
    {events : List ε} {final : σ} (run : machine.exec events = some final) : P events final := by
  induction events using List.reverseRecOn generalizing final with
  | nil =>
      rw [exec, execFrom_nil, Option.some_inj] at run
      exact run ▸ start
  | append_singleton events event inductionHypothesis =>
      have split := run
      rw [exec, execFrom_append, Option.bind_eq_some_iff] at split
      obtain ⟨state, before, stepped⟩ := split
      rw [execFrom_cons, Option.bind_eq_some_iff] at stepped
      obtain ⟨next, taken, last⟩ := stepped
      rw [execFrom_nil, Option.some_inj] at last
      exact last ▸ extend events state event next before (inductionHypothesis before) taken

/-- Whatever holds in the end and did not hold at first was brought about by
some step. -/
theorem someStep_of_holds {P : σ → Prop} {C : σ → ε → Prop} (absent : ¬ P machine.init)
    (caused : ∀ state event next, machine.Reachable state → machine.step state event = some next →
      P next → P state ∨ C state event)
    {events : List ε} {final : σ} (run : machine.exec events = some final) (holds : P final) :
    machine.SomeStep C machine.init events := by
  apply exec_induction machine
    (P := fun events state => P state → machine.SomeStep C machine.init events)
    (fun held => absurd held absent) _ run holds
  intro before state event next reached earlier stepped held
  rcases caused state event next ⟨before, reached⟩ stepped held with already | here
  · exact (earlier already).append [event]
  · exact someStep_snoc reached stepped here

/-! ### Steps in turn -/

/-- Executed events meet the conditions one after another, each in the state it
runs in; others may run in between. -/
def InTurn (machine : Machine σ ε) : List (σ → ε → Prop) → σ → List ε → Prop
  | [], _, _ => True
  | condition :: later, state, events =>
      ∃ before event after middle next, events = before ++ event :: after ∧
        machine.execFrom state before = some middle ∧
        machine.step middle event = some next ∧
        condition middle event ∧ InTurn machine later next after

/-- What happens in turn in the first part of a run happens in it. -/
theorem InTurn.append {conditions : List (σ → ε → Prop)} {state : σ} {first : List ε}
    (turns : machine.InTurn conditions state first) (second : List ε) :
    machine.InTurn conditions state (first ++ second) := by
  induction conditions generalizing state first with
  | nil => trivial
  | cons condition later inductionHypothesis =>
      obtain ⟨before, event, after, middle, next, rfl, run, stepped, here, rest⟩ := turns
      refine ⟨before, event, after ++ second, middle, next, ?_, run, stepped, here,
        inductionHypothesis rest⟩
      rw [List.append_assoc, List.cons_append]

/-- One more step meets one more condition. -/
theorem InTurn.snoc {conditions : List (σ → ε → Prop)} {condition : σ → ε → Prop}
    {start state next : σ} {events : List ε} {event : ε}
    (turns : machine.InTurn conditions start events)
    (run : machine.execFrom start events = some state)
    (stepped : machine.step state event = some next) (here : condition state event) :
    machine.InTurn (conditions ++ [condition]) start (events ++ [event]) := by
  induction conditions generalizing start events with
  | nil => exact ⟨events, event, [], state, next, rfl, run, stepped, here, trivial⟩
  | cons first later inductionHypothesis =>
      obtain ⟨before, own, after, middle, moved, rfl, reached, taken, met, rest⟩ := turns
      have tail : machine.execFrom moved after = some state := by
        rw [execFrom_append, reached, Option.bind_some, execFrom_cons, taken] at run
        exact run
      refine ⟨before, own, after ++ [event], middle, moved, ?_, reached, taken, met,
        inductionHypothesis rest tail⟩
      rw [List.append_assoc, List.cons_append]

/-! ### Outputs -/

/-- What the executed steps put out, in their order. -/
def outputs {α : Type w} (machine : Machine σ ε) (emit : σ → ε → List α) : σ → List ε → List α
  | _, [] => []
  | state, event :: rest =>
      match machine.step state event with
      | none => []
      | some next => emit state event ++ outputs machine emit next rest

section Outputs

variable {α : Type w} {emit : σ → ε → List α}

/-- A part that every step moves by its outputs is moved by those of the run. -/
theorem part_of_outputs {τ : Type v'} (part : σ → τ) (act : τ → α → τ)
    (moves : ∀ state event next, machine.step state event = some next →
      part next = (emit state event).foldl act (part state))
    {state final : σ} {events : List ε} (run : machine.execFrom state events = some final) :
    part final = (machine.outputs emit state events).foldl act (part state) := by
  induction events generalizing state with
  | nil =>
      rw [execFrom_nil, Option.some_inj] at run
      exact run ▸ rfl
  | cons event rest inductionHypothesis =>
      rw [execFrom_cons, Option.bind_eq_some_iff] at run
      obtain ⟨next, stepped, tail⟩ := run
      rw [outputs, stepped]
      dsimp only
      rw [List.foldl_append, ← moves state event next stepped]
      exact inductionHypothesis tail

/-- Some step put out whatever the run did. -/
theorem mem_outputs {value : α} {state : σ} {events : List ε} :
    value ∈ machine.outputs emit state events ↔
      machine.SomeStep (fun state event => value ∈ emit state event) state events := by
  induction events generalizing state with
  | nil => exact iff_of_false List.not_mem_nil not_false
  | cons event rest inductionHypothesis =>
      rw [outputs, SomeStep]
      cases machine.step state event with
      | none => simp
      | some next => simp [inductionHypothesis]

end Outputs

/-! ### Budgets -/

theorem tally_snoc (weight : σ → ε → Nat) {state final next : σ} {events : List ε} {event : ε}
    (run : machine.execFrom state events = some final)
    (stepped : machine.step final event = some next) :
    machine.tally weight state (events ++ [event]) =
      machine.tally weight state events + weight final event := by
  induction events generalizing state with
  | nil =>
      rw [execFrom_nil, Option.some_inj] at run
      subst run
      show machine.tally weight state [event] = 0 + weight state event
      rw [Nat.zero_add, tally, stepped]
      rfl
  | cons first rest inductionHypothesis =>
      rw [execFrom_cons, Option.bind_eq_some_iff] at run
      obtain ⟨after, taken, tail⟩ := run
      rw [List.cons_append, tally, tally, taken]
      dsimp only
      rw [inductionHypothesis tail, Nat.add_assoc]

/-! ### Allowed events -/

variable (machine) in
/-- When every unfinished state has a round, a run of allowed events that finishes
or lowers a measure, some run of allowed events finishes. -/
theorem exists_run_finishing (I finished : σ → Prop) (allowed : ε → Prop) (measure : σ → Nat)
    (round : ∀ state, I state → ¬ finished state → ∃ events next,
      (∀ event ∈ events, allowed event) ∧ machine.execFrom state events = some next ∧
        (finished next ∨ I next ∧ measure next < measure state))
    {state : σ} (start : I state) :
    ∃ events final, (∀ event ∈ events, allowed event) ∧
      machine.execFrom state events = some final ∧ finished final := by
  generalize bound : measure state = limit
  induction limit using Nat.strongRecOn generalizing state with
  | ind limit inductionHypothesis =>
      by_cases done : finished state
      · exact ⟨[], state, by simp, rfl, done⟩
      · obtain ⟨first, next, permitted, ran, ended | ⟨kept, lower⟩⟩ := round state start done
        · exact ⟨first, next, permitted, ran, ended⟩
        · rw [bound] at lower
          obtain ⟨rest, final, all, run, ended⟩ :=
            inductionHypothesis (measure next) lower kept rfl
          refine ⟨first ++ rest, final, ?_, ?_, ended⟩
          · intro event member
            exact (List.mem_append.mp member).elim (permitted event) (all event)
          · rw [execFrom_append, ran, Option.bind_some, run]

/-! ### Machines on top of machines -/

/-- A view of the states under which every step is a run of another machine
takes reachable states to reachable states. -/
theorem Reachable.viewRun {τ : Type w} {δ : Type v'} (abstract : Machine τ δ) (view : σ → τ)
    (start : view machine.init = abstract.init)
    (simulates : ∀ state event next, machine.step state event = some next →
      ∃ seen, abstract.execFrom (view state) seen = some (view next))
    {state : σ} (reached : machine.Reachable state) : abstract.Reachable (view state) := by
  apply reached.invariant (I := fun state => abstract.Reachable (view state))
  · exact ⟨[], congrArg some start.symm⟩
  · intro before event next viewed stepped
    obtain ⟨seen, run⟩ := simulates before event next stepped
    exact viewed.run run

end Disburse.Library.Machine
