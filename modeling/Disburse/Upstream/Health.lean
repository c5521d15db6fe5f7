import Disburse.Proxy.Server

/-!
Owns one tick of the health monitor of an upstream: the getSlot poll with its
record and the breaker, and the seeding of the blockhash cache. The monitor's
own requests take no permit and are not counted in the metrics.
-/

namespace Disburse

open Disburse.Library

/-- The slot in a getSlot body; `none` stands for a transport failure or a body
that is not JSON. -/
def polledSlot (body : Option Json) : Option Nat :=
  body.bind fun value => (value.get "result").bind Json.asU64

namespace UpstreamPool

/-- `last_slot` and the tip after a poll; the tip never goes back. -/
def observeSlot (pool : UpstreamPool) (name : String) : Option Nat → UpstreamPool
  | none => pool
  | some slot =>
      { pool.setCells name { pool.cells name with lastSlot := slot } with
        tipSlot := max pool.tipSlot slot }

/-- The getSlot poll of a tick, with its record. -/
def recordPoll (pool : UpstreamPool) (name : String) (body : Option Json) (latencyMs : Rat)
    (now : Instant) : UpstreamPool :=
  let slot := polledSlot body
  let observed := pool.observeSlot name slot
  { observed with stats := observed.stats.record now name "getSlot" latencyMs slot.isSome }

/-- The rolling error rate exceeds the threshold, and the upstream is not
dropped already. -/
def BreakerFires (cfg : Config) (pool : UpstreamPool) (name : String) (now : Instant) : Prop :=
  cfg.health.circuitBreakerErrorRate < pool.stats.errorRate name ∧
    pool.isDropped name now = false

instance (cfg : Config) (pool : UpstreamPool) (name : String) (now : Instant) :
    Decidable (pool.BreakerFires cfg name now) :=
  inferInstanceAs (Decidable (_ ∧ _))

/-- Drop the upstream when its rolling error rate exceeds the threshold. -/
def checkBreaker (cfg : Config) (pool : UpstreamPool) (name : String) (now : Instant) :
    UpstreamPool :=
  if pool.BreakerFires cfg name now then pool.setCircuit name (.trip now cfg.cooldown) else pool

/-- The first half of a tick: poll getSlot, record it, drive the breaker. -/
def pollSlot (cfg : Config) (pool : UpstreamPool) (name : String) (body : Option Json)
    (latencyMs : Rat) (now : Instant) : UpstreamPool :=
  (pool.recordPoll name body latencyMs now).checkBreaker cfg name now

/-! ### What a poll changes -/

section Poll

variable (cfg : Config) (pool : UpstreamPool) (name : String) (body : Option Json)
  (latencyMs : Rat) (now : Instant)

@[simp] theorem observeSlot_stats (slot : Option Nat) :
    (pool.observeSlot name slot).stats = pool.stats := by
  cases slot <;> rfl

@[simp] theorem observeSlot_circuit (slot : Option Nat) (other : String) :
    (pool.observeSlot name slot).circuit other = pool.circuit other := by
  cases slot with
  | none => rfl
  | some slot =>
      show (pool.setCells name { pool.cells name with lastSlot := slot }).circuit other = _
      rw [setCells_circuit]
      split
      · rename_i same
        rw [same]
        rfl
      · rfl

@[simp] theorem checkBreaker_stats : (pool.checkBreaker cfg name now).stats = pool.stats := by
  unfold checkBreaker
  split <;> rfl

theorem recordPoll_stats :
    (pool.recordPoll name body latencyMs now).stats =
      pool.stats.record now name "getSlot" latencyMs (polledSlot body).isSome := by
  unfold recordPoll
  dsimp only
  rw [observeSlot_stats]

@[simp] theorem recordPoll_circuit (other : String) :
    (pool.recordPoll name body latencyMs now).circuit other = pool.circuit other :=
  observeSlot_circuit pool name (polledSlot body) other

theorem pollSlot_stats :
    (pool.pollSlot cfg name body latencyMs now).stats =
      pool.stats.record now name "getSlot" latencyMs (polledSlot body).isSome := by
  rw [pollSlot, checkBreaker_stats, recordPoll_stats]

/-- A poll leaves every circuit as it was or opens it. -/
theorem checkBreaker_circuit (other : String) :
    (pool.checkBreaker cfg name now).circuit other = pool.circuit other ∨
      (pool.checkBreaker cfg name now).circuit other = .trip now cfg.cooldown := by
  unfold checkBreaker
  split
  · rw [setCircuit_circuit]
    split
    · exact Or.inr rfl
    · exact Or.inl rfl
  · exact Or.inl rfl

theorem pollSlot_circuit (other : String) :
    (pool.pollSlot cfg name body latencyMs now).circuit other = pool.circuit other ∨
      (pool.pollSlot cfg name body latencyMs now).circuit other = .trip now cfg.cooldown := by
  have breaker := checkBreaker_circuit cfg (pool.recordPoll name body latencyMs now) name now other
  rw [recordPoll_circuit] at breaker
  exact breaker

/-- A poll takes no permit. -/
theorem pollSlot_permits (other : String) :
    ((pool.pollSlot cfg name body latencyMs now).cells other).permits =
      (pool.cells other).permits := by
  have observed : ∀ slot, ((pool.observeSlot name slot).cells other).permits =
      (pool.cells other).permits := by
    intro slot
    cases slot with
    | none => rfl
    | some slot =>
        exact setCells_permits pool name { pool.cells name with lastSlot := slot } other rfl
  unfold pollSlot checkBreaker
  split
  · exact (setCircuit_permits _ _ _ other).trans (observed _)
  · exact observed _

/-- A poll does not touch a circuit whose cooldown is running. -/
theorem pollSlot_of_dropped {other : String} (dropped : pool.isDropped other now = true) :
    (pool.pollSlot cfg name body latencyMs now).circuit other = pool.circuit other := by
  have recorded := recordPoll_circuit pool name body latencyMs now other
  unfold pollSlot checkBreaker
  split
  · rename_i fires
    have different : other ≠ name := by
      rintro rfl
      have connected := fires.2
      unfold isDropped at connected dropped
      rw [recorded, dropped] at connected
      cases connected
    rw [setCircuit_circuit, if_neg different, recorded]
  · exact recorded

/-- When the breaker fires the poll leaves the circuit open for the cooldown. -/
theorem pollSlot_of_fires
    (fires : (pool.recordPoll name body latencyMs now).BreakerFires cfg name now) :
    (pool.pollSlot cfg name body latencyMs now).circuit name = .trip now cfg.cooldown := by
  rw [pollSlot, checkBreaker, if_pos fires, setCircuit_circuit, if_pos rfl]

end Poll

end UpstreamPool

/-- The second half of a tick: seed the cache from a getLatestBlockhash body. -/
def AppState.seedCache (state : AppState) (name : String) (body : Option Json) : AppState :=
  match body with
  | none => state
  | some value =>
      { state with
        blockhashCache := state.blockhashCache.observe (state.pool.cells name).lastSlot value }

end Disburse
