import Disburse.Library.AtomicMax
import Disburse.Upstream.Health

/-!
Owns the update of the tip by all monitors at once, with the `last_slot` store,
the load of the tip and every compare-exchange as atomic steps. `observeSlot`
is the uninterrupted update; here the monitors interleave in any way.
-/

namespace Disburse

open Disburse.Library

/-- The pool and where each monitor stands in its tick, with the slots reported
and the slots whose tick has left the loop so far. -/
structure TipState where
  pool : UpstreamPool
  loop : String → AtomicMax.Phase Nat
  reported : List Nat
  finished : List Nat

/-- `poll` is the answer to a getSlot request of the monitor of `name`, up to
the store; `turn` is its next access to the tip. -/
inductive TipEvent where
  | poll (name : String) (body : Option Json)
  | turn (name : String)

namespace TipState

def start (cfg : Config) : TipState :=
  { pool := .fromConfig cfg, loop := fun _ => .idle, reported := [], finished := [] }

/-- A monitor has stored the slot it was told. -/
def report (state : TipState) (name : String) (slot : Nat) : TipState :=
  { state with
    pool := state.pool.storeSlot name slot
    loop := Function.update state.loop name (.loading slot)
    reported := slot :: state.reported }

/-- A monitor has accessed the tip, which left `tip` in it. -/
def access (state : TipState) (name : String) (tip : Nat) (phase : AtomicMax.Phase Nat) :
    TipState :=
  { pool := { state.pool with tipSlot := tip }
    loop := Function.update state.loop name phase
    reported := state.reported
    finished := AtomicMax.ended (state.loop name) phase ++ state.finished }

def step (state : TipState) : TipEvent → Option TipState
  | .poll name body =>
      if (state.loop name).proposal = none then
        match polledSlot body with
        | none => some state
        | some slot => some (state.report name slot)
      else none
  | .turn name =>
      ((state.loop name).turn state.pool.tipSlot).map fun turned =>
        state.access name turned.1 turned.2

/-- No tick is between its store and the end of its loop. -/
def Quiet (state : TipState) : Prop :=
  ∀ name, (state.loop name).proposal = none

/-- The largest slot reported so far. -/
def largestReported (state : TipState) : Nat :=
  state.reported.foldr max 0

/-- The tip as the cell of a running maximum. -/
def view (state : TipState) : AtomicMax.State String Nat :=
  { cell := state.pool.tipSlot
    phase := state.loop
    proposed := state.reported
    finished := state.finished }

end TipState

/-- The monitors of the upstreams of a config. -/
def tipMachine (cfg : Config) : Machine TipState TipEvent where
  init := .start cfg
  step := TipState.step

namespace TipState

/-- What one step does: nothing, a report by an idle monitor, or an access. -/
theorem step_cases {state next : TipState} {event : TipEvent}
    (stepped : state.step event = some next) :
    next = state ∨
    (∃ name slot, (state.loop name).proposal = none ∧ next = state.report name slot) ∨
    (∃ name tip phase, (state.loop name).turn state.pool.tipSlot = some (tip, phase) ∧
      next = state.access name tip phase) := by
  cases event with
  | poll name body =>
      simp only [step] at stepped
      split at stepped
      · rename_i idle
        split at stepped
        · exact .inl (Option.some.inj stepped).symm
        · rename_i slot told
          exact .inr (.inl ⟨name, slot, idle, (Option.some.inj stepped).symm⟩)
      · cases stepped
  | turn name =>
      obtain ⟨⟨tip, phase⟩, turned, same⟩ := Option.map_eq_some_iff.mp stepped
      exact .inr (.inr ⟨name, tip, phase, turned, same.symm⟩)

/-- Every step is one of the running maximum, or does not touch it. -/
theorem view_step {state next : TipState} {event : TipEvent}
    (stepped : state.step event = some next) :
    next.view = state.view ∨
      ∃ seen, AtomicMax.step state.view seen = some next.view := by
  rcases step_cases stepped with rfl | ⟨name, slot, idle, rfl⟩ |
    ⟨name, tip, phase, turned, rfl⟩
  · exact .inl rfl
  · refine .inr ⟨.propose name slot, ?_⟩
    show (if (state.loop name).proposal = none then _ else _) = _
    rw [if_pos idle]
    rfl
  · refine .inr ⟨.turn name, ?_⟩
    show ((state.loop name).turn state.pool.tipSlot).map _ = _
    rw [turned]
    rfl

variable {cfg : Config} {state : TipState}

theorem tracks (reached : (tipMachine cfg).Reachable state) : AtomicMax.Tracks state.view :=
  have viewed : (AtomicMax.machine String Nat).Reachable state.view :=
    reached.view _ view rfl fun _ _ _ stepped => view_step stepped
  AtomicMax.tracks_of_reachable viewed

/-- `last_slot` of every upstream is a reported slot, or still the initial 0. -/
theorem lastSlot_reported (reached : (tipMachine cfg).Reachable state) (name : String) :
    (state.pool.cells name).lastSlot = 0 ∨
      (state.pool.cells name).lastSlot ∈ state.reported := by
  apply reached.invariant (I := fun state =>
    (state.pool.cells name).lastSlot = 0 ∨ (state.pool.cells name).lastSlot ∈ state.reported)
  · exact .inl rfl
  · intro before event next known stepped
    rcases step_cases stepped with rfl | ⟨other, slot, -, rfl⟩ | ⟨other, tip, phase, -, rfl⟩
    · exact known
    · by_cases same : name = other
      · subst same
        exact .inr (by simp [report, UpstreamPool.storeSlot])
      · have kept : ((before.report other slot).pool.cells name).lastSlot =
            (before.pool.cells name).lastSlot := by
          rw [report, UpstreamPool.storeSlot, UpstreamPool.setCells_cells_other _ _ _ same]
        rw [kept]
        exact known.imp_right (List.mem_cons_of_mem slot)
    · exact known

/-- The tip never goes back. -/
theorem tipSlot_mono (reached : (tipMachine cfg).Reachable state) {events : List TipEvent}
    {later : TipState} (run : (tipMachine cfg).execFrom state events = some later) :
    state.pool.tipSlot ≤ later.pool.tipSlot := by
  have both := Machine.invariant_execFrom
    (I := fun current => (tipMachine cfg).Reachable current ∧
      state.pool.tipSlot ≤ current.pool.tipSlot)
    (fun before event next known stepped => by
      obtain ⟨known, grown⟩ := known
      refine ⟨known.step stepped, le_trans grown ?_⟩
      rcases view_step stepped with same | ⟨seen, taken⟩
      · exact le_of_eq (congrArg AtomicMax.State.cell same).symm
      · exact ((tracks known).step taken).2)
    ⟨reached, le_refl _⟩ run
  exact both.2

/-! ### The uninterrupted tick -/

theorem step_turn (state : TipState) (name : String) {phase left : AtomicMax.Phase Nat} {tip : Nat}
    (stands : state.loop name = phase) (turned : phase.turn state.pool.tipSlot = some (tip, left)) :
    state.step (.turn name) = some (state.access name tip left) := by
  show ((state.loop name).turn state.pool.tipSlot).map _ = _
  rw [stands, turned]
  rfl

theorem update_idle {loop : String → AtomicMax.Phase Nat} {name : String}
    (idle : loop name = .idle) :
    Function.update loop name .idle = loop := by
  rw [← idle, Function.update_eq_self]

/-- A tick that nothing interrupts is `observeSlot`. -/
theorem exec_tick {name : String} (idle : state.loop name = .idle) (body : Option Json) :
    ∃ events later, (tipMachine cfg).execFrom state events = some later ∧
      later.pool = state.pool.observeSlot name (polledSlot body) ∧ later.loop = state.loop := by
  have free : (state.loop name).proposal = none := by
    rw [idle]
    rfl
  cases told : polledSlot body with
  | none =>
      refine ⟨[.poll name body], state, ?_, rfl, rfl⟩
      simp [Machine.execFrom, tipMachine, step, free, told]
  | some slot =>
      have polled : state.step (.poll name body) = some (state.report name slot) := by
        simp only [step, free, told, ↓reduceIte]
      have loading : (state.report name slot).loop name = .loading slot := by
        simp [report]
      have loaded := step_turn (state.report name slot) name loading rfl
      by_cases behind : state.pool.tipSlot < slot
      · -- The load finds a smaller tip, and the exchange meets the value loaded.
        rw [show AtomicMax.Phase.afterRead slot (state.report name slot).pool.tipSlot =
          .exchanging slot state.pool.tipSlot from if_pos behind] at loaded
        have matched : AtomicMax.Phase.turn state.pool.tipSlot
            (.exchanging slot state.pool.tipSlot) =
            some (slot, .idle) := if_pos rfl
        have exchanged := step_turn
          ((state.report name slot).access name state.pool.tipSlot
            (.exchanging slot state.pool.tipSlot)) name (by simp [access]) matched
        have ran : (tipMachine cfg).execFrom state [.poll name body, .turn name, .turn name] =
            some (((state.report name slot).access name state.pool.tipSlot
              (.exchanging slot state.pool.tipSlot)).access name slot .idle) := by
          simp only [Machine.execFrom, tipMachine, polled, Option.bind_some]
          exact (congrArg (Option.bind · _) loaded).trans (congrArg (Option.bind · _) exchanged)
        refine ⟨_, _, ran, ?_, ?_⟩
        · simp only [access, report, UpstreamPool.storeSlot, UpstreamPool.observeSlot]
          rw [Nat.max_eq_right (Nat.le_of_lt behind)]
        · simp [access, report, update_idle idle]
      · rw [show AtomicMax.Phase.afterRead slot (state.report name slot).pool.tipSlot = .idle from
          if_neg behind] at loaded
        have ran : (tipMachine cfg).execFrom state [.poll name body, .turn name] =
            some ((state.report name slot).access name state.pool.tipSlot .idle) := by
          simp only [Machine.execFrom, tipMachine, polled, Option.bind_some]
          exact congrArg (Option.bind · _) loaded
        refine ⟨_, _, ran, ?_, ?_⟩
        · simp only [access, report, UpstreamPool.storeSlot, UpstreamPool.observeSlot]
          rw [Nat.max_eq_left (Nat.not_lt.mp behind)]
        · simp [access, report, update_idle idle]

/-! ### The tip against the reported slots -/

/-- In every state that the monitors reach, whatever the order of their steps:
the tip only grows from here on, is at most the largest slot reported, covers
every slot whose tick has ended, and is the largest slot reported when no tick
is under way; then no upstream is ahead of it. -/
theorem tipSlot_tracks_reported (reached : (tipMachine cfg).Reachable state) :
    (∀ events later, (tipMachine cfg).execFrom state events = some later →
      state.pool.tipSlot ≤ later.pool.tipSlot) ∧
    state.pool.tipSlot ≤ state.largestReported ∧
    (∀ slot ∈ state.finished, slot ≤ state.pool.tipSlot) ∧
    (state.Quiet → state.pool.tipSlot = state.largestReported ∧
      ∀ name, (state.pool.cells name).lastSlot ≤ state.pool.tipSlot) := by
  have known := tracks reached
  refine ⟨fun events later run => tipSlot_mono reached run, known.cell_le_largest,
    known.carried, fun quiet => ?_⟩
  have exact : state.pool.tipSlot = state.largestReported := known.cell_eq_largest quiet
  refine ⟨exact, fun name => ?_⟩
  rcases lastSlot_reported reached name with initial | member
  · rw [initial]
    exact Nat.zero_le _
  · rw [exact]
    exact List.le_max_of_le' 0 member (le_refl _)

/-- Two monitors load the tip before either exchanges, the one with the smaller
slot fails, and a later report goes backwards. -/
def raceEvents : List TipEvent :=
  let answer (slot : Nat) : Option Json := some (.object [("result", .number (.posInt slot))])
  [.poll "a" (answer 5), .poll "b" (answer 9), .turn "a", .turn "b", .turn "b", .turn "a",
    .poll "a" (answer 3), .turn "a"]

theorem tipSlot_tracks_reported_race :
    ∃ state, (tipMachine Config.deployment).exec raceEvents = some state ∧
      state.reported = [3, 9, 5] ∧ state.finished = [3, 5, 9] ∧
      (state.pool.tipSlot ≤ state.largestReported ∧
        ∀ slot ∈ state.finished, slot ≤ state.pool.tipSlot) := by
  refine ⟨_, rfl, rfl, rfl, ?_⟩
  have reached : (tipMachine Config.deployment).Reachable _ := ⟨raceEvents, rfl⟩
  obtain ⟨-, bounded, covered, -⟩ := tipSlot_tracks_reported reached
  exact ⟨bounded, covered⟩

end TipState

end Disburse
