import Disburse.Library.Machine
import Mathlib.Data.List.MinMax
import Mathlib.Logic.Function.Basic

/-!
Owns the running maximum kept in one atomic cell by any number of processes,
each of which loads the cell and raises it with a retried compare-exchange.

Nothing is assumed about who proposes what or about the order of the atomic
steps. The results hold in every reachable state; at rest the cell is the
maximum of what was proposed.
-/

namespace Disburse.Library

universe u v

namespace AtomicMax

/-- One process: idle, about to load, or about to exchange the value it expects. -/
inductive Phase (α : Type u) where
  | idle
  | loading (proposal : α)
  | exchanging (proposal expected : α)
deriving DecidableEq, Repr

namespace Phase

variable {α : Type u}

/-- What the process works on. -/
def proposal : Phase α → Option α
  | .idle => none
  | .loading proposal => some proposal
  | .exchanging proposal _ => some proposal

variable [LinearOrder α]

/-- The guard of the loop, on the value read last. -/
def afterRead (proposal seen : α) : Phase α :=
  if seen < proposal then .exchanging proposal seen else .idle

/-- The next atomic step of a process: the cell and the phase it leaves. -/
def turn (cell : α) : Phase α → Option (α × Phase α)
  | .idle => none
  | .loading proposal => some (cell, afterRead proposal cell)
  | .exchanging proposal expected =>
      if cell = expected then some (proposal, .idle)
      else some (cell, afterRead proposal cell)

/-- An exchange is only tried towards a larger value. -/
def Ordered : Phase α → Prop
  | .exchanging proposal expected => expected < proposal
  | _ => True

theorem afterRead_ordered (proposal seen : α) : (afterRead proposal seen).Ordered := by
  unfold afterRead
  split
  · assumption
  · trivial

/-- After a read the process goes on with its proposal or the value read covers it. -/
theorem afterRead_cases (proposal seen : α) :
    ((afterRead proposal seen).proposal = some proposal) ∨
      ((afterRead proposal seen).proposal = none ∧ proposal ≤ seen) := by
  unfold afterRead
  split
  · exact .inl rfl
  · rename_i covered
    exact .inr ⟨rfl, not_lt.mp covered⟩

/-- What one atomic step does to the cell and to the proposal of its process. -/
structure TurnSpec (cell : α) (phase : Phase α) (cell' : α) (phase' : Phase α) : Prop where
  ordered : phase'.Ordered
  raises : cell ≤ cell'
  source : cell' = cell ∨ phase.proposal = some cell'
  covers : ∀ value, phase.proposal = some value →
    phase'.proposal = some value ∨ (phase'.proposal = none ∧ value ≤ cell')
  keeps : ∀ value, phase'.proposal = some value → phase.proposal = some value

theorem turnSpec_afterRead {cell proposal : α} {phase : Phase α}
    (working : phase.proposal = some proposal) :
    TurnSpec cell phase cell (afterRead proposal cell) where
  ordered := afterRead_ordered proposal cell
  raises := le_refl cell
  source := .inl rfl
  covers := by
    intro value same
    cases working.symm.trans same
    exact afterRead_cases proposal cell
  keeps := by
    intro value kept
    rcases afterRead_cases proposal cell with same | ⟨ended, -⟩
    · rw [working, ← same, kept]
    · rw [ended] at kept
      cases kept

theorem turn_spec {cell cell' : α} {phase phase' : Phase α} (ordered : phase.Ordered)
    (turned : phase.turn cell = some (cell', phase')) : TurnSpec cell phase cell' phase' := by
  cases phase with
  | idle => cases turned
  | loading proposal =>
      cases turned
      exact turnSpec_afterRead rfl
  | exchanging proposal expected =>
      simp only [turn] at turned
      split at turned
      · rename_i matched
        cases turned
        subst matched
        exact ⟨trivial, le_of_lt ordered, .inr rfl, fun value same => by
          cases same
          exact .inr ⟨rfl, le_refl _⟩, fun value kept => by cases kept⟩
      · cases turned
        exact turnSpec_afterRead rfl

end Phase

/-- The cell, the processes, and the values proposed and carried through so far. -/
structure State (ι : Type v) (α : Type u) where
  cell : α
  phase : ι → Phase α
  proposed : List α
  finished : List α

inductive Event (ι : Type v) (α : Type u) where
  | propose (process : ι) (value : α)
  | turn (process : ι)

variable {ι : Type v} {α : Type u}

/-- The proposal that a step of a process brought to its end. -/
def ended (before after : Phase α) : List α :=
  if after.proposal = none then before.proposal.toList else []

theorem mem_ended {before after : Phase α} {value : α} (member : value ∈ ended before after) :
    before.proposal = some value ∧ after.proposal = none := by
  unfold ended at member
  split at member
  · rename_i done
    exact ⟨Option.mem_toList.mp member, done⟩
  · cases member

/-- An idle process takes up a value. -/
def State.propose [DecidableEq ι] (state : State ι α) (process : ι) (value : α) : State ι α :=
  { state with
    phase := Function.update state.phase process (.loading value)
    proposed := value :: state.proposed }

/-- A process has taken a step that left `cell` and `phase`. -/
def State.settle [DecidableEq ι] (state : State ι α) (process : ι) (cell : α)
    (phase : Phase α) : State ι α :=
  { cell := cell
    phase := Function.update state.phase process phase
    proposed := state.proposed
    finished := ended (state.phase process) phase ++ state.finished }

def step [DecidableEq ι] [LinearOrder α] (state : State ι α) : Event ι α → Option (State ι α)
  | .propose process value =>
      if (state.phase process).proposal = none then some (state.propose process value) else none
  | .turn process =>
      ((state.phase process).turn state.cell).map fun turned =>
        state.settle process turned.1 turned.2

/-- A cell that holds the least value, and idle processes. -/
def start [LinearOrder α] [OrderBot α] : State ι α :=
  { cell := ⊥, phase := fun _ => .idle, proposed := [], finished := [] }

/-- Processes indexed by `ι` on one cell of type `α`. -/
def machine (ι : Type v) (α : Type u) [DecidableEq ι] [LinearOrder α] [OrderBot α] :
    Machine (State ι α) (Event ι α) where
  init := start
  step := step

/-- The largest value proposed so far, the least of all when there is none. -/
def State.largest [LinearOrder α] [OrderBot α] (state : State ι α) : α :=
  state.proposed.foldr max ⊥

def State.AtRest (state : State ι α) : Prop :=
  ∀ process, (state.phase process).proposal = none

/-- Every proposal is in the cell's value or still worked on, and the cell holds
nothing else. -/
structure Tracks [LinearOrder α] [OrderBot α] (state : State ι α) : Prop where
  ordered : ∀ process, (state.phase process).Ordered
  pending : ∀ process value, (state.phase process).proposal = some value →
    value ∈ state.proposed
  source : state.cell = ⊥ ∨ state.cell ∈ state.proposed
  covered : ∀ value ∈ state.proposed,
    value ≤ state.cell ∨ ∃ process, (state.phase process).proposal = some value
  carried : ∀ value ∈ state.finished, value ≤ state.cell

variable [LinearOrder α] [OrderBot α]

theorem tracks_start : Tracks (start : State ι α) where
  ordered := fun _ => trivial
  pending := fun _ _ working => by cases working
  source := .inl rfl
  covered := fun _ member => by cases member
  carried := fun _ member => by cases member

/-- The cell never passes the largest proposal. -/
theorem Tracks.cell_le_largest {state : State ι α} (tracks : Tracks state) :
    state.cell ≤ state.largest := by
  rcases tracks.source with initial | member
  · rw [initial]
    exact bot_le
  · exact List.le_max_of_le member (le_refl _)

/-- At rest the cell is the largest proposal. -/
theorem Tracks.cell_eq_largest {state : State ι α} (tracks : Tracks state)
    (rest : state.AtRest) : state.cell = state.largest := by
  apply le_antisymm tracks.cell_le_largest
  apply List.max_le_of_forall_le
  intro value member
  rcases tracks.covered value member with below | ⟨process, working⟩
  · exact below
  · rw [rest process] at working
    cases working

/-! ### Steps -/

variable [DecidableEq ι]

theorem Tracks.propose {state : State ι α} (tracks : Tracks state)
    {process : ι} (idle : (state.phase process).proposal = none) (value : α) :
    Tracks (state.propose process value) where
  ordered := by
    intro other
    by_cases same : other = process
    · subst same
      simp [State.propose, Phase.Ordered]
    · simpa [State.propose, Function.update_of_ne same] using tracks.ordered other
  pending := by
    intro other found working
    by_cases same : other = process
    · subst same
      simp only [State.propose, Function.update_self, Phase.proposal, Option.some_inj] at working
      simp [State.propose, working]
    · simp only [State.propose, Function.update_of_ne same] at working
      exact List.mem_cons_of_mem value (tracks.pending other found working)
  source := by
    rcases tracks.source with initial | member
    · exact .inl initial
    · exact .inr (List.mem_cons_of_mem value member)
  covered := by
    intro found member
    rcases List.mem_cons.mp member with rfl | earlier
    · exact .inr ⟨process, by simp [State.propose, Phase.proposal]⟩
    · rcases tracks.covered found earlier with below | ⟨other, working⟩
      · exact .inl below
      · have different : other ≠ process := by
          rintro rfl
          rw [idle] at working
          cases working
        exact .inr ⟨other, by simpa [State.propose, Function.update_of_ne different] using working⟩
  carried := tracks.carried

theorem Tracks.settle {state : State ι α} (tracks : Tracks state)
    {process : ι} {cell : α} {phase : Phase α}
    (spec : Phase.TurnSpec state.cell (state.phase process) cell phase) :
    Tracks (state.settle process cell phase) where
  ordered := by
    intro other
    by_cases same : other = process
    · subst same
      simpa [State.settle] using spec.ordered
    · simpa [State.settle, Function.update_of_ne same] using tracks.ordered other
  pending := by
    intro other value working
    by_cases same : other = process
    · subst same
      simp only [State.settle, Function.update_self] at working
      exact tracks.pending other value (spec.keeps value working)
    · simp only [State.settle, Function.update_of_ne same] at working
      exact tracks.pending other value working
  source := by
    rcases spec.source with same | proposed
    · rcases tracks.source with initial | member
      · exact .inl (same.trans initial)
      · refine .inr ?_
        show cell ∈ state.proposed
        rw [same]
        exact member
    · exact .inr (tracks.pending process cell proposed)
  covered := by
    intro value member
    rcases tracks.covered value member with below | ⟨other, working⟩
    · exact .inl (le_trans below spec.raises)
    · by_cases same : other = process
      · subst same
        rcases spec.covers value working with goesOn | ⟨-, covered⟩
        · exact .inr ⟨other, by simpa [State.settle] using goesOn⟩
        · exact .inl covered
      · exact .inr ⟨other, by simpa [State.settle, Function.update_of_ne same] using working⟩
  carried := by
    intro value member
    rcases List.mem_append.mp member with now | earlier
    · obtain ⟨working, done⟩ := mem_ended now
      rcases spec.covers value working with goesOn | ⟨-, covered⟩
      · rw [done] at goesOn
        cases goesOn
      · exact covered
    · exact le_trans (tracks.carried value earlier) spec.raises

/-- What one step does: a proposal of an idle process, or a turn with its specification. -/
theorem step_cases {state next : State ι α} {event : Event ι α}
    (tracks : Tracks state) (stepped : step state event = some next) :
    (∃ process value, event = .propose process value ∧
      (state.phase process).proposal = none ∧ next = state.propose process value) ∨
    (∃ process cell phase, event = .turn process ∧
      Phase.TurnSpec state.cell (state.phase process) cell phase ∧
      next = state.settle process cell phase) := by
  cases event with
  | propose process value =>
      simp only [step] at stepped
      split at stepped
      · rename_i idle
        cases stepped
        exact .inl ⟨process, value, rfl, idle, rfl⟩
      · cases stepped
  | turn process =>
      obtain ⟨⟨cell, phase⟩, turned, rfl⟩ := Option.map_eq_some_iff.mp stepped
      exact .inr ⟨process, cell, phase, rfl, Phase.turn_spec (tracks.ordered process) turned, rfl⟩

theorem Tracks.step {state next : State ι α} {event : Event ι α}
    (tracks : Tracks state) (stepped : step state event = some next) :
    Tracks next ∧ state.cell ≤ next.cell := by
  rcases step_cases tracks stepped with ⟨process, value, -, idle, rfl⟩ |
    ⟨process, cell, phase, -, spec, rfl⟩
  · exact ⟨tracks.propose idle value, le_refl _⟩
  · exact ⟨tracks.settle spec, spec.raises⟩

theorem tracks_of_reachable {state : State ι α}
    (reached : (machine ι α).Reachable state) : Tracks state :=
  reached.invariant (I := Tracks) (tracks_start)
    fun _ _ _ tracks stepped => (tracks.step stepped).1

end AtomicMax

end Disburse.Library
