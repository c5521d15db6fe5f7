import Disburse.Library.Machine
import Disburse.Proxy.Guardrail

/-!
Owns the runs of the blockhash cache under its three writers, lookups and an
advancing tip, and the age that a passing sendTransaction can have.
-/

namespace Disburse

open Disburse.Library

/-- The cache and the tip. `inserted` lists, for the statements, the slots
inserted for a hash since the hash last entered the cache. -/
structure CacheRun where
  cache : BlockhashCache
  tip : Nat
  inserted : String → List Nat

inductive CacheEvent where
  /-- The health monitor of an upstream at `lastSlot` got a getLatestBlockhash body. -/
  | seed (lastSlot : Nat) (body : Json)
  /-- A client's getLatestBlockhash got a body. -/
  | harvest (body : Json)
  /-- The upstreams vouched for a hash that was looked up when the tip was `tipRead`. -/
  | verified (blockhash : String) (tipRead : Nat)
  | lookup (blockhash : String)
  | advance (slot : Nat)

namespace CacheRun

def new (cfg : Config) (createdAt : Instant) : CacheRun :=
  { cache := .new cfg.health.blockhashWarmupSecs cfg.health.blockhashCacheSize createdAt
    tip := 0
    inserted := fun _ => [] }

/-- An insertion, with the books: hashes that fell out lose their slots. -/
def insert (run : CacheRun) (blockhash : String) (slot : Nat) : CacheRun :=
  let cache := run.cache.insert blockhash slot
  { run with
    cache := cache
    inserted := fun other =>
      if other = blockhash then slot :: run.inserted other
      else if cache.slotOf other = none then [] else run.inserted other }

def observe (run : CacheRun) (fallback : Nat) (body : Json) : CacheRun :=
  observeWith insert run fallback body

def step (run : CacheRun) : CacheEvent → Option CacheRun
  | .seed lastSlot body => some (run.observe lastSlot body)
  | .harvest body => some (run.observe run.tip body)
  | .verified blockhash tipRead =>
      if tipRead ≤ run.tip then some (run.insert blockhash tipRead) else none
  | .lookup blockhash => some { run with cache := (run.cache.getSlot blockhash).2 }
  | .advance slot => some { run with tip := max run.tip slot }

def machine (cfg : Config) (createdAt : Instant) : Machine CacheRun CacheEvent :=
  { init := new cfg createdAt, step := step }

/-! ### What the cache stores -/

/-- The cache stores the highest slot inserted since the hash entered. -/
def StoresHighest (run : CacheRun) : Prop :=
  ∀ blockhash, run.cache.slotOf blockhash = (run.inserted blockhash).max?

theorem storesHighest_insert {run : CacheRun} (stores : StoresHighest run) (blockhash : String)
    (slot : Nat) : StoresHighest (run.insert blockhash slot) := by
  intro other
  by_cases same : other = blockhash
  · subst same
    show (run.cache.insert other slot).slotOf other =
      (if other = other then slot :: run.inserted other else _).max?
    rw [if_pos rfl, BlockhashCache.max?_cons_getD, BlockhashCache.slotOf_insert_self, stores other]
  · show (run.cache.insert blockhash slot).slotOf other =
      (if other = blockhash then _ else
        if (run.cache.insert blockhash slot).slotOf other = none then []
        else run.inserted other).max?
    rw [if_neg same]
    rcases BlockhashCache.slotOf_insert_other run.cache slot same with kept | dropped
    · split
      · rename_i absent
        rw [absent]
        rfl
      · rw [kept, stores other]
    · rw [dropped, if_pos rfl]
      rfl

theorem storesHighest_observe {run : CacheRun} (stores : StoresHighest run) (fallback : Nat)
    (body : Json) : StoresHighest (run.observe fallback body) := by
  unfold observe observeWith
  split
  · exact storesHighest_insert stores _ _
  · exact stores

theorem storesHighest_step {run next : CacheRun} {event : CacheEvent}
    (stores : StoresHighest run) (stepped : step run event = some next) :
    StoresHighest next := by
  cases event with
  | seed lastSlot body =>
      rw [step, Option.some_inj] at stepped
      rw [← stepped]
      exact storesHighest_observe stores lastSlot body
  | harvest body =>
      rw [step, Option.some_inj] at stepped
      rw [← stepped]
      exact storesHighest_observe stores run.tip body
  | verified blockhash tipRead =>
      rw [step, Option.ite_none_right_eq_some, Option.some_inj] at stepped
      rw [← stepped.2]
      exact storesHighest_insert stores blockhash tipRead
  | lookup blockhash =>
      rw [step, Option.some_inj] at stepped
      rw [← stepped]
      intro other
      show (run.cache.getSlot blockhash).2.slotOf other = _
      rw [BlockhashCache.slotOf_getSlot]
      exact stores other
  | advance slot =>
      rw [step, Option.some_inj] at stepped
      rw [← stepped]
      exact stores

theorem storesHighest_of_reachable {cfg : Config} {createdAt : Instant} {run : CacheRun}
    (reached : (machine cfg createdAt).Reachable run) : StoresHighest run :=
  reached.invariant (I := StoresHighest) (fun _ => rfl) fun _ _ _ stores stepped =>
    storesHighest_step stores stepped

end CacheRun

/-! ### The age of a passing call -/

/-- The shared state shows this cache and this tip. -/
def AppState.Shows (state : AppState) (run : CacheRun) : Prop :=
  state.blockhashCache = run.cache ∧ state.pool.tipSlot = run.tip

/-- The check of `request` reads `blockhash`, finds it in the warm cache and lets
the request through. -/
structure PassesOnHit (external : External) (cfg : Config) (state : AppState) (now : Instant)
    (answers : Answers) (request : Json) (blockhash : String) : Prop where
  warm : state.blockhashCache.isWarmedUp now = true
  reads : requestBlockhash external request = some blockhash
  hit : state.blockhashCache.slotOf blockhash ≠ none
  passes : (checkBlockhashFreshness external cfg state now answers request
    (requestId request)).2 = none

/-- A call that passes on a hit is within the allowed age of the highest slot
inserted for its hash since the hash last entered the cache. -/
theorem passesOnHit_age (external : External) (cfg : Config) (createdAt : Instant)
    (run : CacheRun) (state : AppState) (now : Instant) (answers : Answers) (request : Json)
    (blockhash : String) (reached : (CacheRun.machine cfg createdAt).Reachable run)
    (shows : state.Shows run)
    (passing : PassesOnHit external cfg state now answers request blockhash) :
    ∃ slot ∈ run.inserted blockhash, (∀ other ∈ run.inserted blockhash, other ≤ slot) ∧
      run.tip - slot ≤ cfg.health.maxBlockhashAgeSlots := by
  have stores := CacheRun.storesHighest_of_reachable reached blockhash
  rcases shows with ⟨sameCache, sameTip⟩
  obtain ⟨slot, stored⟩ := Option.ne_none_iff_exists'.mp passing.hit
  have highest : (run.inserted blockhash).max? = some slot := by
    rw [← stores, ← sameCache, stored]
  have extreme := List.max?_eq_some_iff.mp highest
  have verdict := checkBlockhashFreshness_spec cfg answers (requestId request) passing.warm
    passing.reads
  rcases verdict with ⟨_, rejected, _⟩ | ⟨fresh, _, _⟩
  · rw [passing.passes] at rejected
    cases rejected
  · unfold StaleBlockhash at fresh
    rw [stored, sameTip] at fresh
    exact ⟨slot, extreme.1, extreme.2, Nat.le_of_not_lt fresh⟩

/-! ### A passing call on an old hash -/

/-- A getLatestBlockhash body. -/
def latestBlockhash (blockhash : String) (slot : Nat) : Json :=
  .object [("result", .object [
    ("context", .object [("slot", .number (.posInt slot))]),
    ("value", .object [("blockhash", .string blockhash)])])]

def bareBlockhash : String := External.plain.bs58Encode WireTransaction.bare.blockhash

/-- The monitor sees the hash at slot 10, a client's response names it again at
slot 100, and the tip is then 150. -/
def restampedRun : CacheRun :=
  { (((CacheRun.new .deployment 0).insert bareBlockhash 10).insert bareBlockhash 100) with
    tip := 150 }

def restampedEvents : List CacheEvent :=
  [.seed 0 (latestBlockhash bareBlockhash 10), .harvest (latestBlockhash bareBlockhash 100),
    .advance 150]

theorem restampedRun_reached :
    (CacheRun.machine .deployment 0).Reachable restampedRun := ⟨restampedEvents, rfl⟩

/-- Sixty seconds after start-up, with the cache and tip of that run. -/
def restampedState : AppState :=
  { AppState.start .deployment 0 with
    pool := { UpstreamPool.fromConfig .deployment with tipSlot := 150 }
    blockhashCache := restampedRun.cache }

theorem restampedState_passes :
    PassesOnHit .plain .deployment restampedState 60000000000 (fun _ => none) bareRequest
      bareBlockhash := by
  have warm : restampedState.blockhashCache.isWarmedUp 60000000000 = true := by decide +kernel
  have reads : requestBlockhash .plain bareRequest = some bareBlockhash :=
    requestBlockhash_of_carries bareRequest_carries base58Decode_encode External.plain_base64
  have stored : restampedState.blockhashCache.slotOf bareBlockhash = some 100 := by
    show ((((CacheRun.new .deployment 0).cache.insert bareBlockhash 10).insert bareBlockhash
      100).slotOf bareBlockhash) = some 100
    rw [BlockhashCache.slotOf_insert_self, BlockhashCache.slotOf_insert_self]
    rfl
  have verdict := checkBlockhashFreshness_spec .deployment (fun _ => none)
    (requestId bareRequest) warm reads
  refine ⟨warm, reads, by simp [stored], ?_⟩
  rcases verdict with ⟨stale, _, _⟩ | ⟨_, passed, _⟩
  · unfold StaleBlockhash at stale
    rw [stored] at stale
    exact absurd stale (by decide)
  · exact passed

theorem passesOnHit_age_restamped :
    ∃ slot ∈ restampedRun.inserted bareBlockhash,
      (∀ other ∈ restampedRun.inserted bareBlockhash, other ≤ slot) ∧
        restampedRun.tip - slot ≤ Config.deployment.health.maxBlockhashAgeSlots :=
  passesOnHit_age .plain .deployment 0 restampedRun restampedState 60000000000 (fun _ => none)
    bareRequest bareBlockhash restampedRun_reached ⟨rfl, rfl⟩ restampedState_passes

/-- The call passes although its hash was first inserted 140 slots ago and the
limit is 100. -/
theorem restamped_passes_too_old :
    (CacheRun.machine .deployment 0).exec restampedEvents = some restampedRun ∧
      restampedState.Shows restampedRun ∧
      PassesOnHit .plain .deployment restampedState 60000000000 (fun _ => none) bareRequest
        bareBlockhash ∧
      10 ∈ restampedRun.inserted bareBlockhash ∧
      Config.deployment.health.maxBlockhashAgeSlots < restampedRun.tip - 10 := by
  refine ⟨rfl, ⟨rfl, rfl⟩, restampedState_passes, ?_, by decide⟩
  simp [restampedRun, CacheRun.insert]

end Disburse
