import Disburse.Routing.Stats
import Disburse.Upstream.Client

/-!
Owns the upstream pool: the configured upstreams and the shared routing state.

The source's `UpstreamPool` mixes fields that never change (the config and the
upstream list built from it) with shared mutable state. The model keeps the
fixed part as the parameter `cfg` of its functions, with `Config.pool` for the
upstream list, and `UpstreamPool` holds what changes. Cells are looked up by
upstream name; `validate` makes names distinct.
-/

namespace Disburse

/-- `pool.upstreams`, in config order. -/
def Config.pool (cfg : Config) : List Upstream :=
  cfg.upstreams.map fun upstream => { name := upstream.name, url := upstream.url }

structure UpstreamPool where
  cells : String → UpstreamCells
  stats : StatsStore
  tipSlot : Nat
  currentLeader : String → Option String

namespace UpstreamPool

def fromConfig (cfg : Config) : UpstreamPool :=
  { cells := fun _ => .new cfg.maxConcurrentPerUpstream
    stats := .new cfg.routing.ewmaAlpha cfg.health.rollingWindowSecs
    tipSlot := 0
    currentLeader := fun _ => none }

def setCells (pool : UpstreamPool) (name : String) (cells : UpstreamCells) : UpstreamPool :=
  { pool with cells := Function.update pool.cells name cells }

def setCircuit (pool : UpstreamPool) (name : String) (circuit : CircuitState) : UpstreamPool :=
  pool.setCells name { pool.cells name with circuit := circuit }

def circuit (pool : UpstreamPool) (name : String) : CircuitState :=
  (pool.cells name).circuit

def isDropped (pool : UpstreamPool) (name : String) (now : Instant) : Bool :=
  (pool.circuit name).isDropped now

/-- `u.last_slot.store(s)` -/
def storeSlot (pool : UpstreamPool) (name : String) (slot : Nat) : UpstreamPool :=
  pool.setCells name { pool.cells name with lastSlot := slot }

section Cells

variable (pool : UpstreamPool) (name : String) (cells : UpstreamCells)

@[simp] theorem setCells_cells_self : (pool.setCells name cells).cells name = cells := by
  simp [setCells]

theorem setCells_cells_other {other : String} (different : other ≠ name) :
    (pool.setCells name cells).cells other = pool.cells other := by
  simp [setCells, Function.update_of_ne different]

@[simp] theorem setCells_stats : (pool.setCells name cells).stats = pool.stats := rfl

@[simp] theorem setCells_tipSlot : (pool.setCells name cells).tipSlot = pool.tipSlot := rfl

@[simp] theorem setCircuit_stats (circuit : CircuitState) :
    (pool.setCircuit name circuit).stats = pool.stats := rfl

theorem setCells_circuit (other : String) :
    (pool.setCells name cells).circuit other =
      if other = name then cells.circuit else pool.circuit other := by
  unfold circuit
  by_cases same : other = name
  · subst same
    simp
  · rw [setCells_cells_other pool name cells same, if_neg same]

/-- New cells with as many permits change no permits. -/
theorem setCells_permits (other : String) (same : cells.permits = (pool.cells name).permits) :
    ((pool.setCells name cells).cells other).permits = (pool.cells other).permits := by
  by_cases equal : other = name
  · rw [equal, setCells_cells_self, same]
  · rw [setCells_cells_other pool name cells equal]

theorem setCircuit_permits (circuit : CircuitState) (other : String) :
    ((pool.setCircuit name circuit).cells other).permits = (pool.cells other).permits :=
  setCells_permits pool name { pool.cells name with circuit := circuit } other rfl

theorem setCircuit_circuit (circuit : CircuitState) (other : String) :
    (pool.setCircuit name circuit).circuit other =
      if other = name then circuit else pool.circuit other :=
  setCells_circuit pool name _ other

end Cells

end UpstreamPool

end Disburse
