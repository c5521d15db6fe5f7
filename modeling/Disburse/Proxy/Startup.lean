import Disburse.Proxy.System

/-!
Owns the operations that panic on values that `validate` lets through: the
semaphore and the cache table that `build_state` allocates, and the addition of
the cooldown to the clock in `trip` and `settle_probe`. Of `Upstream::new` the HTTP
client, whose settings are fixed, and the header map are left out.
-/

namespace Disburse

open Disburse.Library

/-- The limits of the machine that the proxy runs on. -/
structure Platform where
  /-- `usize::MAX` -/
  usizeMax : Nat
  /-- The largest capacity a hash table can be given. -/
  tableCapacity : Nat
  /-- The latest reading the monotonic clock can represent. -/
  instantMax : Instant
deriving DecidableEq, Repr

inductive Panic where
  | semaphorePermits
  | capacityOverflow
  | instantOverflow
deriving DecidableEq, Repr

def Panics {α : Type} (result : Except Panic α) : Prop :=
  ∃ panic, result = .error panic

/-- An operation that panics when an amount exceeds a limit. -/
def within {α : Type} (limit amount : Nat) (panic : Panic) (result : α) : Except Panic α :=
  if limit < amount then .error panic else .ok result

theorem within_of_le {α : Type} {limit amount : Nat} (fits : amount ≤ limit) (panic : Panic)
    (result : α) : within limit amount panic result = .ok result :=
  if_neg (Nat.not_lt.mpr fits)

theorem within_of_lt {α : Type} {limit amount : Nat} (above : limit < amount) (panic : Panic)
    (result : α) : within limit amount panic result = .error panic :=
  if_pos above

namespace Platform

variable (platform : Platform)

/-- `Semaphore::new`, which hands out as many permits as it is given. -/
def semaphoreNew (permits : Nat) : Except Panic Nat :=
  within (platform.usizeMax >>> 3) permits .semaphorePermits permits

/-- `LruCache::new`, which preallocates its table. -/
def lruCacheNew (capacity : Nat) : Except Panic (Lru String Nat) :=
  within platform.tableCapacity capacity .capacityOverflow (.empty capacity)

/-- `Instant + Duration` -/
def instantAdd (now : Instant) (duration : Duration) : Except Panic Instant :=
  within platform.instantMax (now + duration) .instantOverflow (now + duration)

/-- `Upstream::new`, as far as its semaphore. The loop over the configured headers is
left out, and with it the panic of `HeaderMap::insert` on a map that is full. -/
def upstreamNew (maxConcurrent : Nat) : Except Panic UpstreamCells := do
  let permits ← platform.semaphoreNew maxConcurrent
  .ok (.new permits)

/-- `UpstreamPool::from_config`: every upstream gets its cells. -/
def poolFromConfig (cfg : Config) : Except Panic UpstreamPool := do
  let _ ← cfg.upstreams.mapM fun _ => platform.upstreamNew cfg.maxConcurrentPerUpstream
  .ok (.fromConfig cfg)

/-- `BlockhashCache::new` -/
def cacheNew (warmupSecs maxEntries : Nat) (now : Instant) : Except Panic BlockhashCache := do
  let inner ← platform.lruCacheNew (max maxEntries 1)
  .ok { inner := inner, createdAt := now, warmupSecs := warmupSecs }

def buildState (cfg : Config) (now : Instant) : Except Panic AppState := do
  let pool ← platform.poolFromConfig cfg
  let blockhashCache ←
    platform.cacheNew cfg.health.blockhashWarmupSecs cfg.health.blockhashCacheSize now
  .ok { pool := pool, blockhashCache := blockhashCache, metrics := .new }

def trip (now : Instant) (cooldown : Duration) : Except Panic CircuitState := do
  let expires ← platform.instantAdd now cooldown
  .ok (.opened expires)

def settleProbe (circuit : CircuitState) (success : Bool) (now : Instant) (cooldown : Duration) :
    Except Panic CircuitState :=
  match circuit with
  | .halfOpen true => if success then .ok .closed else platform.trip now cooldown
  | other => .ok other

/-! ### When they do not panic -/

section Operations

variable {platform} {cfg : Config} {now : Instant} {cooldown : Duration}

/-- `trip` is the total operation while the sum is representable. -/
theorem trip_of_le (fits : now + cooldown ≤ platform.instantMax) :
    platform.trip now cooldown = .ok (.trip now cooldown) := by
  rw [trip, instantAdd, within_of_le fits]
  rfl

theorem trip_of_lt (above : platform.instantMax < now + cooldown) :
    platform.trip now cooldown = .error .instantOverflow := by
  rw [trip, instantAdd, within_of_lt above]
  rfl

theorem settleProbe_of_le (fits : now + cooldown ≤ platform.instantMax) (circuit : CircuitState)
    (success : Bool) :
    platform.settleProbe circuit success now cooldown =
      .ok (circuit.settleProbe success now cooldown) := by
  unfold settleProbe
  split
  · cases success with
    | true => rfl
    | false => exact trip_of_le fits
  · rename_i other
    rw [CircuitState.settleProbe_of_ne other]

theorem upstreamNew_of_le {maxConcurrent : Nat} (fits : maxConcurrent ≤ platform.usizeMax / 8) :
    platform.upstreamNew maxConcurrent = .ok (.new maxConcurrent) := by
  have below : maxConcurrent ≤ platform.usizeMax >>> 3 := by
    rw [Nat.shiftRight_eq_div_pow]
    exact fits
  rw [upstreamNew, semaphoreNew, within_of_le below]
  rfl

theorem upstreamNew_of_lt {maxConcurrent : Nat} (above : platform.usizeMax / 8 < maxConcurrent) :
    platform.upstreamNew maxConcurrent = .error .semaphorePermits := by
  have limit : platform.usizeMax >>> 3 < maxConcurrent := by
    rw [Nat.shiftRight_eq_div_pow]
    exact above
  rw [upstreamNew, semaphoreNew, within_of_lt limit]
  rfl

theorem poolFromConfig_of_le (fits : cfg.maxConcurrentPerUpstream ≤ platform.usizeMax / 8) :
    platform.poolFromConfig cfg = .ok (.fromConfig cfg) := by
  rw [poolFromConfig, upstreamNew_of_le fits]
  have allocated : ∀ upstreams : List UpstreamConfig,
      upstreams.mapM (fun _ => (.ok (.new cfg.maxConcurrentPerUpstream) : Except Panic _)) =
        .ok (upstreams.map fun _ => UpstreamCells.new cfg.maxConcurrentPerUpstream) := by
    intro upstreams
    induction upstreams with
    | nil => rfl
    | cons upstream rest inductionHypothesis =>
        rw [List.mapM_cons, inductionHypothesis]
        rfl
  rw [allocated]
  rfl

/-- One upstream is enough for the semaphore limit to matter. -/
theorem poolFromConfig_of_lt (upstreams : cfg.upstreams ≠ [])
    (above : platform.usizeMax / 8 < cfg.maxConcurrentPerUpstream) :
    platform.poolFromConfig cfg = .error .semaphorePermits := by
  obtain ⟨first, rest, listed⟩ := List.exists_cons_of_ne_nil upstreams
  rw [poolFromConfig, upstreamNew_of_lt above, listed, List.mapM_cons]
  rfl

theorem cacheNew_of_le {warmupSecs maxEntries : Nat} (positive : 0 < maxEntries)
    (fits : maxEntries ≤ platform.tableCapacity) :
    platform.cacheNew warmupSecs maxEntries now = .ok (.new warmupSecs maxEntries now) := by
  rw [cacheNew, Nat.max_eq_left positive, lruCacheNew, within_of_le fits]
  rfl

theorem cacheNew_of_lt {warmupSecs maxEntries : Nat} (above : platform.tableCapacity < maxEntries) :
    platform.cacheNew warmupSecs maxEntries now = .error .capacityOverflow := by
  rw [cacheNew, lruCacheNew, within_of_lt (lt_of_lt_of_le above (Nat.le_max_left maxEntries 1))]
  rfl

/-- A state is built exactly when the semaphores and the table can be allocated. -/
theorem buildState_panics_iff {external : External} (valid : cfg.Valid external) :
    ¬ Panics (platform.buildState cfg now) ↔
      cfg.maxConcurrentPerUpstream ≤ platform.usizeMax / 8 ∧
        cfg.health.blockhashCacheSize ≤ platform.tableCapacity := by
  by_cases permits : cfg.maxConcurrentPerUpstream ≤ platform.usizeMax / 8
  · by_cases entries : cfg.health.blockhashCacheSize ≤ platform.tableCapacity
    · have built : platform.buildState cfg now = .ok (.start cfg now) := by
        rw [buildState, poolFromConfig_of_le permits, cacheNew_of_le valid.cacheSize entries]
        rfl
      simp [Panics, built, permits, entries]
    · have failed : platform.buildState cfg now = .error .capacityOverflow := by
        rw [buildState, poolFromConfig_of_le permits, cacheNew_of_lt (Nat.not_le.mp entries)]
        rfl
      simp [Panics, failed, entries]
  · have failed : platform.buildState cfg now = .error .semaphorePermits := by
      rw [buildState, poolFromConfig_of_lt valid.upstreams (Nat.not_le.mp permits)]
      rfl
    simp [Panics, failed, permits]

theorem not_panics_trip_iff :
    ¬ Panics (platform.trip now cooldown) ↔ now + cooldown ≤ platform.instantMax := by
  by_cases fits : now + cooldown ≤ platform.instantMax
  · simp [Panics, trip_of_le fits, fits]
  · simp [Panics, trip_of_lt (Nat.not_le.mp fits), fits]

theorem not_panics_settleProbe (fits : now + cooldown ≤ platform.instantMax)
    (circuit : CircuitState) (success : Bool) :
    ¬ Panics (platform.settleProbe circuit success now cooldown) := by
  rintro ⟨panic, failed⟩
  rw [settleProbe_of_le fits] at failed
  cases failed

end Operations

/-! ### The life of a proxy -/

/-- What a proxy started from a config relies on, while its clock reads at most
`horizon`: the state is built, and in every state it reaches `trip` and
`settle_probe` return. -/
def NeverPanics (external : External) (cfg : Config) (startedAt horizon : Instant) : Prop :=
  ¬ Panics (platform.buildState cfg startedAt) ∧
    ∀ system, (System.machine external cfg startedAt).Reachable system →
      ∀ now, startedAt ≤ now → now ≤ horizon →
        ¬ Panics (platform.trip now cfg.cooldown) ∧
          ∀ name success, ¬ Panics
            (platform.settleProbe (system.state.pool.circuit name) success now cfg.cooldown)

/-- A validated config never panics exactly when its three unchecked numbers
fit the platform. -/
theorem neverPanics_iff {external : External} {cfg : Config} {startedAt horizon : Instant}
    (validated : cfg.validate external = .ok ()) (running : startedAt ≤ horizon) :
    platform.NeverPanics external cfg startedAt horizon ↔
      cfg.maxConcurrentPerUpstream ≤ platform.usizeMax / 8 ∧
        cfg.health.blockhashCacheSize ≤ platform.tableCapacity ∧
        horizon + cfg.cooldown ≤ platform.instantMax := by
  have valid := validate_eq_ok.mp validated
  constructor
  · rintro ⟨built, lives⟩
    obtain ⟨permits, entries⟩ := (buildState_panics_iff valid).mp built
    have started : (System.machine external cfg startedAt).Reachable _ := ⟨[], rfl⟩
    have trips := (lives _ started horizon running le_rfl).1
    exact ⟨permits, entries, not_panics_trip_iff.mp trips⟩
  · rintro ⟨permits, entries, clock⟩
    refine ⟨(buildState_panics_iff valid).mpr ⟨permits, entries⟩, ?_⟩
    intro system _ now _ before
    have fits : now + cfg.cooldown ≤ platform.instantMax :=
      le_trans (Nat.add_le_add_right before cfg.cooldown) clock
    exact ⟨not_panics_trip_iff.mpr fits, fun name success => not_panics_settleProbe fits _ success⟩

end Platform

/-- A 64-bit Linux: signed 64-bit seconds on the clock, and tables of at most
2^58 buckets of 16 bytes, filled to seven eighths. -/
def linux64 : Platform where
  usizeMax := 2 ^ 64 - 1
  tableCapacity := 7 * 2 ^ 55
  instantMax := (2 ^ 63 - 1) * 1000000000 + 999999999

/-- The largest cooldown the field can hold. -/
def endlessCooldown : Config :=
  { Config.deployment with
    health := { Config.deployment.health with circuitBreakerCooldownSecs := 2 ^ 64 - 1 } }

/-- It is validated, the state is built, and the first trip panics. -/
theorem endlessCooldown_panics :
    endlessCooldown.validate .plain = .ok () ∧
      ¬ Panics (linux64.buildState endlessCooldown 0) ∧
      linux64.trip 0 endlessCooldown.cooldown = .error .instantOverflow ∧
      ¬ linux64.NeverPanics .plain endlessCooldown 0 0 := by
  have validated : endlessCooldown.validate .plain = .ok () := by decide +kernel
  have tripped : linux64.trip 0 endlessCooldown.cooldown = .error .instantOverflow :=
    Platform.trip_of_lt (by decide +kernel)
  refine ⟨validated, ?_, tripped, ?_⟩
  · exact (Platform.buildState_panics_iff (validate_eq_ok.mp validated)).mpr (by decide +kernel)
  · rintro ⟨-, lives⟩
    have started : (System.machine .plain endlessCooldown 0).Reachable _ := ⟨[], rfl⟩
    exact (lives _ started 0 le_rfl le_rfl).1 ⟨_, tripped⟩

/-- A century is far inside the limits of the example deployment. -/
theorem neverPanics_iff_deployment :
    linux64.NeverPanics .plain .deployment 0 (100 * 365 * 86400 * 1000000000) ↔
      Config.deployment.maxConcurrentPerUpstream ≤ linux64.usizeMax / 8 ∧
        Config.deployment.health.blockhashCacheSize ≤ linux64.tableCapacity ∧
        100 * 365 * 86400 * 1000000000 + Config.deployment.cooldown ≤ linux64.instantMax :=
  linux64.neverPanics_iff Config.deployment_validate (by decide)

end Disburse
