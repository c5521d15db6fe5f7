import Disburse.External
import Disburse.Library.Base58
import Mathlib.Data.Rat.Floor
import Mathlib.Algebra.Order.Field.Rat

/-!
Owns the configuration record and its validation.

Floating-point fields are exact rationals and integer fields are natural
numbers; `NaN` and the infinities, which every range check rejects, are not
values of the model. Body limits of requests and per-method timeouts are left
out, which no modelled function reads, and so are headers, which only the loop of
`Upstream::new` reads that the model leaves out.
-/

namespace Disburse

open Disburse.Library

/-- Nanoseconds on the monotonic clock. -/
abbrev Instant := Nat

/-- Nanoseconds. -/
abbrev Duration := Nat

def Duration.fromSecs (secs : Nat) : Duration := secs * 1000000000

def Duration.asSecs (duration : Duration) : Nat := duration / 1000000000

structure UpstreamConfig where
  name : String
  url : String
deriving DecidableEq, Repr

structure RoutingConfig where
  latencyWeight : Rat
  successWeight : Rat
  ewmaAlpha : Rat
  hysteresisMargin : Rat
deriving DecidableEq, Repr

structure HealthConfig where
  checkIntervalSecs : Nat
  maxSlotLag : Nat
  maxBlockhashAgeSlots : Nat
  circuitBreakerErrorRate : Rat
  circuitBreakerCooldownSecs : Nat
  rollingWindowSecs : Nat
  blockhashWarmupSecs : Nat
  blockhashCacheSize : Nat
deriving DecidableEq, Repr

structure RetryConfig where
  maxAttempts : Nat
  retryOnDifferentUpstream : Bool
  deadlineMs : Nat
deriving DecidableEq, Repr

structure Config where
  listen : String
  metricsListen : String
  upstreams : List UpstreamConfig
  routing : RoutingConfig
  health : HealthConfig
  retries : RetryConfig
  requestTimeoutDefaultMs : Nat
  maxResponseBodyBytes : Nat
  maxConcurrentPerUpstream : Nat
deriving DecidableEq, Repr

def defaultMaxConcurrentPerUpstream : Nat := 256
def defaultHysteresisMargin : Rat := 1 / 10
def defaultRollingWindowSecs : Nat := 60
def defaultBlockhashWarmupSecs : Nat := 30
def defaultBlockhashCacheSize : Nat := 512
def defaultRequestDeadlineMs : Nat := 15000
def defaultTimeoutMs : Nat := 10000
def defaultResponseBodyLimit : Nat := 16 * 1024 * 1024

/-! ### Validation -/

/-- What `validate` bails out with. -/
inductive ConfigError where
  | invalidListen (address reason : String)
  | invalidMetricsListen (address reason : String)
  | noUpstreams
  | emptyUpstreamName
  | duplicateUpstreamName (name : String)
  | invalidUrl (name reason : String)
  | outOfRange (field range : String) (got : Rat)
  | notPositive (field : String)
deriving DecidableEq, Repr

/-- The config field, or list of fields, an error speaks about. -/
def ConfigError.field : ConfigError → String
  | .invalidListen _ _ => "listen"
  | .invalidMetricsListen _ _ => "metrics_listen"
  | .noUpstreams | .emptyUpstreamName | .duplicateUpstreamName _ | .invalidUrl _ _ => "upstreams"
  | .outOfRange field _ _ | .notPositive field => field

def require (condition : Prop) [Decidable condition] (error : ConfigError) :
    Except ConfigError Unit :=
  if condition then .ok () else .error error

/-- `parsed.map_err(error)?`; the parsed value itself is not used. -/
def parseOr {α : Type} (parsed : Except String α) (error : String → ConfigError) :
    Except ConfigError Unit :=
  match parsed with
  | .error reason => .error (error reason)
  | .ok _ => .ok ()

/-- The `White_Space` characters of Unicode, which `str::trim` strips. -/
def isWhiteSpace (c : Char) : Bool :=
  let code := c.toNat
  (9 ≤ code && code ≤ 13) || code == 0x20 || code == 0x85 || code == 0xA0 || code == 0x1680 ||
    (0x2000 ≤ code && code ≤ 0x200A) || code == 0x2028 || code == 0x2029 || code == 0x202F ||
    code == 0x205F || code == 0x3000

/-- `name.trim().is_empty()` -/
def trimIsEmpty (name : String) : Bool := name.toList.all isWhiteSpace

/-- The loop over `upstreams`, with the names seen so far. -/
def validateUpstreams (external : External) (seen : List String) :
    List UpstreamConfig → Except ConfigError Unit
  | [] => .ok ()
  | upstream :: rest => do
      require (trimIsEmpty upstream.name = false) .emptyUpstreamName
      require (upstream.name ∉ seen) (.duplicateUpstreamName upstream.name)
      parseOr (external.urlParse upstream.url) (.invalidUrl upstream.name)
      validateUpstreams external (upstream.name :: seen) rest

/-- A number in `[0, 1]`. -/
def requireUnit (field : String) (value : Rat) : Except ConfigError Unit :=
  require (0 ≤ value ∧ value ≤ 1) (.outOfRange field "[0, 1]" value)

def requirePositive (field : String) (value : Nat) : Except ConfigError Unit :=
  require (value ≠ 0) (.notPositive field)

def Config.validate (external : External) (cfg : Config) : Except ConfigError Unit := do
  parseOr (external.parseSocketAddr cfg.listen) (.invalidListen cfg.listen)
  parseOr (external.parseSocketAddr cfg.metricsListen) (.invalidMetricsListen cfg.metricsListen)
  require (cfg.upstreams ≠ []) .noUpstreams
  validateUpstreams external [] cfg.upstreams
  requireUnit "routing.latency_weight" cfg.routing.latencyWeight
  requireUnit "routing.success_weight" cfg.routing.successWeight
  require (¬(¬(0 ≤ cfg.routing.ewmaAlpha ∧ cfg.routing.ewmaAlpha < 1) ∨ cfg.routing.ewmaAlpha = 0))
    (.outOfRange "routing.ewma_alpha" "(0, 1)" cfg.routing.ewmaAlpha)
  require (0 ≤ cfg.routing.hysteresisMargin ∧ cfg.routing.hysteresisMargin < 1)
    (.outOfRange "routing.hysteresis_margin" "[0, 1)" cfg.routing.hysteresisMargin)
  requirePositive "health.check_interval_secs" cfg.health.checkIntervalSecs
  requireUnit "health.circuit_breaker_error_rate" cfg.health.circuitBreakerErrorRate
  requirePositive "health.rolling_window_secs" cfg.health.rollingWindowSecs
  requirePositive "health.blockhash_cache_size" cfg.health.blockhashCacheSize
  requirePositive "retries.max_attempts" cfg.retries.maxAttempts
  requirePositive "retries.deadline_ms" cfg.retries.deadlineMs
  requirePositive "max_concurrent_per_upstream" cfg.maxConcurrentPerUpstream
  requirePositive "request_timeout.default_ms" cfg.requestTimeoutDefaultMs

/-- What a validated config guarantees. -/
structure Config.Valid (external : External) (cfg : Config) : Prop where
  listen : ∃ address, external.parseSocketAddr cfg.listen = .ok address
  metricsListen : ∃ address, external.parseSocketAddr cfg.metricsListen = .ok address
  upstreams : cfg.upstreams ≠ []
  names : ∀ upstream ∈ cfg.upstreams, trimIsEmpty upstream.name = false
  distinct : (cfg.upstreams.map UpstreamConfig.name).Nodup
  urls : ∀ upstream ∈ cfg.upstreams, ∃ url, external.urlParse upstream.url = .ok url
  latencyWeight : 0 ≤ cfg.routing.latencyWeight ∧ cfg.routing.latencyWeight ≤ 1
  successWeight : 0 ≤ cfg.routing.successWeight ∧ cfg.routing.successWeight ≤ 1
  ewmaAlpha : 0 < cfg.routing.ewmaAlpha ∧ cfg.routing.ewmaAlpha < 1
  hysteresisMargin : 0 ≤ cfg.routing.hysteresisMargin ∧ cfg.routing.hysteresisMargin < 1
  checkInterval : 0 < cfg.health.checkIntervalSecs
  errorRate : 0 ≤ cfg.health.circuitBreakerErrorRate ∧ cfg.health.circuitBreakerErrorRate ≤ 1
  rollingWindow : 0 < cfg.health.rollingWindowSecs
  cacheSize : 0 < cfg.health.blockhashCacheSize
  maxAttempts : 0 < cfg.retries.maxAttempts
  deadline : 0 < cfg.retries.deadlineMs
  maxConcurrent : 0 < cfg.maxConcurrentPerUpstream
  requestTimeout : 0 < cfg.requestTimeoutDefaultMs

@[simp] theorem require_eq_ok {condition : Prop} [Decidable condition] {error : ConfigError} :
    require condition error = .ok () ↔ condition := by
  unfold require
  split <;> simp_all

@[simp] theorem parseOr_eq_ok {α : Type} {parsed : Except String α}
    {error : String → ConfigError} :
    parseOr parsed error = .ok () ↔ ∃ value, parsed = .ok value := by
  cases parsed <;> simp [parseOr]

private theorem bind_eq_ok {first : Except ConfigError Unit}
    {second : Unit → Except ConfigError Unit} :
    (first >>= second) = .ok () ↔ first = .ok () ∧ second () = .ok () := by
  cases first with
  | error reason => simp [bind, Except.bind]
  | ok value => cases value; simp [bind, Except.bind]

theorem validateUpstreams_eq_ok {external : External} {upstreams : List UpstreamConfig}
    {seen : List String} :
    validateUpstreams external seen upstreams = .ok () ↔
      (∀ upstream ∈ upstreams, trimIsEmpty upstream.name = false ∧ upstream.name ∉ seen ∧
        ∃ url, external.urlParse upstream.url = .ok url) ∧
      (upstreams.map UpstreamConfig.name).Nodup := by
  induction upstreams generalizing seen with
  | nil => simp [validateUpstreams]
  | cons upstream rest inductionHypothesis =>
      simp only [validateUpstreams, bind_eq_ok, require_eq_ok, parseOr_eq_ok,
        inductionHypothesis, List.mem_cons, forall_eq_or_imp, List.map_cons, List.nodup_cons,
        List.mem_map, not_or]
      constructor
      · rintro ⟨named, fresh, parsed, others, distinct⟩
        refine ⟨⟨⟨named, fresh, parsed⟩, fun other member => ⟨(others other member).1,
          (others other member).2.1.2, (others other member).2.2⟩⟩, ?_, distinct⟩
        rintro ⟨other, member, same⟩
        exact (others other member).2.1.1 same
      · rintro ⟨⟨⟨named, fresh, parsed⟩, others⟩, unused, distinct⟩
        exact ⟨named, fresh, parsed, fun other member => ⟨(others other member).1,
          ⟨fun same => unused ⟨other, member, same⟩, (others other member).2.1⟩,
          (others other member).2.2⟩, distinct⟩

/-- `validate` accepts exactly the valid configs. -/
theorem validate_eq_ok {external : External} {cfg : Config} :
    cfg.validate external = .ok () ↔ cfg.Valid external := by
  unfold Config.validate
  simp only [bind_eq_ok, parseOr_eq_ok, validateUpstreams_eq_ok, requireUnit,
    requirePositive, require_eq_ok]
  constructor
  · rintro ⟨listen, metricsListen, upstreams, ⟨checked, distinct⟩, latencyWeight, successWeight,
      ewmaAlpha, hysteresisMargin, checkInterval, errorRate, rollingWindow, cacheSize,
      maxAttempts, deadline, maxConcurrent, requestTimeout⟩
    rw [not_or, not_not] at ewmaAlpha
    exact {
      listen, metricsListen, upstreams, distinct, latencyWeight, successWeight,
      hysteresisMargin, errorRate
      names := fun upstream member => (checked upstream member).1
      urls := fun upstream member => (checked upstream member).2.2
      ewmaAlpha := ⟨lt_of_le_of_ne ewmaAlpha.1.1 (Ne.symm ewmaAlpha.2), ewmaAlpha.1.2⟩
      checkInterval := Nat.pos_of_ne_zero checkInterval
      rollingWindow := Nat.pos_of_ne_zero rollingWindow
      cacheSize := Nat.pos_of_ne_zero cacheSize
      maxAttempts := Nat.pos_of_ne_zero maxAttempts
      deadline := Nat.pos_of_ne_zero deadline
      maxConcurrent := Nat.pos_of_ne_zero maxConcurrent
      requestTimeout := Nat.pos_of_ne_zero requestTimeout }
  · intro valid
    refine ⟨valid.listen, valid.metricsListen, valid.upstreams,
      ⟨fun upstream member => ⟨valid.names upstream member, List.not_mem_nil,
        valid.urls upstream member⟩, valid.distinct⟩,
      valid.latencyWeight, valid.successWeight, ?_, valid.hysteresisMargin,
      valid.checkInterval.ne', valid.errorRate, valid.rollingWindow.ne', valid.cacheSize.ne',
      valid.maxAttempts.ne', valid.deadline.ne', valid.maxConcurrent.ne',
      valid.requestTimeout.ne'⟩
    rw [not_or, not_not]
    exact ⟨⟨valid.ewmaAlpha.1.le, valid.ewmaAlpha.2⟩, valid.ewmaAlpha.1.ne'⟩

/-! ### A deployment -/

/-- Address and URL parsers that accept their input, base-58 texts, and a base-64
codec that lists the bytes. -/
def External.plain : External where
  parseSocketAddr := fun _ => .ok ()
  Url := String
  urlParse := .ok
  queryPairs := fun _ => []
  clearQuery := id
  appendPair := fun url _ _ => url
  urlToString := id
  bs58Encode := base58Encode
  bs58Decode := base58Decode
  base64Encode := fun bytes => String.ofList (bytes.map fun byte => Char.ofNat byte.toNat)
  base64Decode := fun text => some (text.toList.map fun c => UInt8.ofNat c.toNat)
  fromSlice := fun _ => none
  toVec := fun _ => some []

/-- The example configuration of the repository, with two upstreams. -/
def Config.deployment : Config where
  listen := "0.0.0.0:8899"
  metricsListen := "0.0.0.0:9090"
  upstreams := [{ name := "helius", url := "https://mainnet.helius-rpc.com/" },
    { name := "triton", url := "https://your.triton-endpoint/" }]
  routing := {
    latencyWeight := 7 / 10
    successWeight := 3 / 10
    ewmaAlpha := 1 / 5
    hysteresisMargin := defaultHysteresisMargin }
  health := {
    checkIntervalSecs := 3
    maxSlotLag := 10
    maxBlockhashAgeSlots := 100
    circuitBreakerErrorRate := 1 / 2
    circuitBreakerCooldownSecs := 30
    rollingWindowSecs := defaultRollingWindowSecs
    blockhashWarmupSecs := defaultBlockhashWarmupSecs
    blockhashCacheSize := defaultBlockhashCacheSize }
  retries := {
    maxAttempts := 3
    retryOnDifferentUpstream := true
    deadlineMs := defaultRequestDeadlineMs }
  requestTimeoutDefaultMs := defaultTimeoutMs
  maxResponseBodyBytes := defaultResponseBodyLimit
  maxConcurrentPerUpstream := defaultMaxConcurrentPerUpstream

/-- The defaults pass their own checks. -/
theorem Config.deployment_validate : Config.deployment.validate .plain = .ok () := by
  decide +kernel

end Disburse
