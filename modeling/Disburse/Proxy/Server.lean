import Disburse.Proxy.Metrics
import Disburse.Routing.Pool
import Disburse.Solana.Cache

/-!
Owns the state that all handlers and monitors share.
-/

namespace Disburse

structure AppState where
  pool : UpstreamPool
  blockhashCache : BlockhashCache
  metrics : Metrics

namespace AppState

/-- The state at start-up. -/
def start (cfg : Config) (now : Instant) : AppState :=
  { pool := .fromConfig cfg
    blockhashCache := .new cfg.health.blockhashWarmupSecs cfg.health.blockhashCacheSize now
    metrics := .new }

def setCells (state : AppState) (name : String) (cells : UpstreamCells) : AppState :=
  { state with pool := state.pool.setCells name cells }

/-- A permit of an upstream goes back. -/
def releasePermit (state : AppState) (name : String) : AppState :=
  state.setCells name (state.pool.cells name).release

/-- Some upstream is not dropped: the condition `any_healthy` of `/readyz`. -/
def anyHealthy (cfg : Config) (state : AppState) (now : Instant) : Bool :=
  cfg.pool.any fun upstream => !state.pool.isDropped upstream.name now

@[simp] theorem setCells_metrics (state : AppState) (name : String) (cells : UpstreamCells) :
    (state.setCells name cells).metrics = state.metrics := rfl

@[simp] theorem setCells_blockhashCache (state : AppState) (name : String)
    (cells : UpstreamCells) : (state.setCells name cells).blockhashCache = state.blockhashCache :=
  rfl

@[simp] theorem setCells_stats (state : AppState) (name : String) (cells : UpstreamCells) :
    (state.setCells name cells).pool.stats = state.pool.stats := rfl

@[simp] theorem releasePermit_metrics (state : AppState) (name : String) :
    (state.releasePermit name).metrics = state.metrics := rfl

@[simp] theorem releasePermit_stats (state : AppState) (name : String) :
    (state.releasePermit name).pool.stats = state.pool.stats := rfl

theorem releasePermit_permits (state : AppState) (name other : String) :
    ((state.releasePermit name).pool.cells other).permits =
      (state.pool.cells other).permits + if name = other then 1 else 0 := by
  show ((state.pool.setCells name (state.pool.cells name).release).cells other).permits = _
  by_cases same : name = other
  · rw [if_pos same, ← same, UpstreamPool.setCells_cells_self]
    rfl
  · rw [if_neg same, UpstreamPool.setCells_cells_other _ _ _ (Ne.symm same)]
    rfl

@[simp] theorem releasePermit_circuit (state : AppState) (name other : String) :
    (state.releasePermit name).pool.circuit other = state.pool.circuit other := by
  unfold releasePermit setCells
  rw [UpstreamPool.setCells_circuit]
  split
  · rename_i same
    rw [same]
    rfl
  · rfl

end AppState

end Disburse
