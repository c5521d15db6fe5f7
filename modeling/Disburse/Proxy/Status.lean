import Disburse.Proxy.Provenance

/-!
Owns the status endpoint `/readyz`: what it answers is what requests meet at that
moment.
-/

namespace Disburse

open Disburse.Library

/-! ### The handlers -/

structure TextResponse where
  status : Nat
  body : String
deriving DecidableEq, Repr

def handleReadyz (cfg : Config) (state : AppState) (now : Instant) : TextResponse :=
  let anyHealthy := state.anyHealthy cfg now
  let warm := state.blockhashCache.isWarmedUp now
  if anyHealthy && warm then { status := 200, body := "ready" }
  else
    { status := 503
      body := if !anyHealthy then "no healthy upstream" else "blockhash cache warming up" }

/-! ### The clock of the cache -/

/-- What warm-up is measured from and against. -/
def AppState.warmup (state : AppState) : Instant × Nat :=
  (state.blockhashCache.createdAt, state.blockhashCache.warmupSecs)

section Steps

variable {external : External} {cfg : Config} {state : AppState}

theorem observe_warmup (cache : BlockhashCache) (fallback : Nat) (body : Json) :
    (cache.observe fallback body).createdAt = cache.createdAt ∧
      (cache.observe fallback body).warmupSecs = cache.warmupSecs := by
  unfold BlockhashCache.observe observeWith
  split <;> exact ⟨rfl, rfl⟩

theorem askNext_warmup (id : Json) (blockhash : String) (tip : Nat)
    (upstreams : List Upstream) :
    (askNext state id blockhash tip upstreams).1.warmup = state.warmup := by
  cases upstreams <;> rfl

theorem beginCheck_warmup (now : Instant) (request id : Json) :
    (beginCheck external cfg state now request id).1.warmup = state.warmup := by
  unfold beginCheck
  split
  · split
    · rfl
    · dsimp only
      split
      · split <;> rfl
      · apply askNext_warmup
  · rfl

theorem Verification.resume_warmup (verification : Verification) (id : Json)
    (answer : Option Json) :
    (verification.resume state id answer).1.warmup = state.warmup := by
  unfold resume
  split
  · rename_i valid _
    cases valid <;> rfl
  · apply askNext_warmup

theorem fireOnce_warmup (upstream : Upstream) (method : String) (id : Json)
    (exchange : Exchange) (latencyMs : Rat) (now : Instant) :
    (fireOnce external cfg state upstream method id exchange latencyMs now).1.warmup =
      state.warmup := by
  unfold fireOnce
  split
  · rfl
  · split
    · rfl
    · rfl
    · dsimp only
      split
      · unfold harvest
        split
        · split
          · rfl
          · rename_i body _
            have kept := observe_warmup state.blockhashCache state.pool.tipSlot body
            exact Prod.ext kept.1 kept.2
        · rfl
      · rfl

theorem startAttempt_warmup (now : Instant) (method : String) (loop : ForwardLoop)
    (draws : Nat → Nat) :
    (startAttempt cfg state now method loop draws).1.warmup = state.warmup := by
  unfold startAttempt
  split <;> rfl

theorem settleAttempt_warmup (flight : InFlight) (success : Bool) (now : Instant) :
    (settleAttempt cfg state flight success now).warmup = state.warmup := by
  unfold settleAttempt
  split <;> rfl

theorem Caller.step_warmup {caller : Caller} {event : TrafficEvent} {next : AppState × Caller}
    (stepped : caller.step external cfg state event = some next) :
    next.1.warmup = state.warmup := by
  cases step_moves stepped with
  | refuses => rfl
  | checks =>
      rw [Task.proceed_state]
      apply beginCheck_warmup
  | forwards => rfl
  | votes =>
      rw [Task.proceed_state]
      apply Verification.resume_warmup
  | hangsUp => rfl
  | works task _ _ started moves =>
      cases moves with
      | enters place answers now => exact (started place answers now rfl).elim
      | leaves => rfl
      | hangsUp => rfl
      | expires => rfl
      | answers => apply fireOnce_warmup
      | attempts _ draws now phase =>
          rcases task.attempt_state external cfg state draws now with same | begun
          · exact congrArg AppState.warmup same
          · exact (congrArg AppState.warmup begun).trans (startAttempt_warmup ..)
      | settles _ flight exchange outcome now phase =>
          rw [Task.settle_state]
          apply settleAttempt_warmup

end Steps

/-- Warm-up is measured from the start of the proxy, in every run. -/
theorem Traffic.warmup_of_reachable {external : External} {cfg : Config} {startedAt : Instant}
    {traffic : Traffic} (reached : (machine external cfg startedAt).Reachable traffic) :
    traffic.state.warmup = (startedAt, cfg.health.blockhashWarmupSecs) := by
  apply reached.invariant (I := fun traffic =>
    traffic.state.warmup = (startedAt, cfg.health.blockhashWarmupSecs)) rfl
  intro before event after same stepped
  cases step_moves stepped with
  | calls _ place caller result named found taken =>
      exact (Caller.step_warmup taken).trans same
  | arrives => exact same
  | polls => exact same
  | seeds upstream body =>
      cases body with
      | none => exact same
      | some body =>
          have kept := observe_warmup before.state.blockhashCache
            (before.state.pool.cells upstream).lastSlot body
          exact (Prod.ext kept.1 kept.2).trans same

/-! ### What `/readyz` tells -/

section Readyz

variable (external : External) (cfg : Config) (startedAt : Instant) (state : AppState)
  (now : Instant)

/-- What requests meet at the moment of an answer of `/readyz`. -/
inductive ReadyzTells : TextResponse → Prop where
  /-- No attempt can start, and no upstream is asked about an unknown hash. -/
  | noHealthyUpstream
      (dropped : ∀ upstream ∈ cfg.pool, state.pool.isDropped upstream.name now = true)
      (refused : ∀ method loop draws, (startAttempt cfg state now method loop draws).2 = none)
      (unasked : ∀ request id verification,
        (beginCheck external cfg state now request id).2 ≠ .asking verification) :
      ReadyzTells { status := 503, body := "no healthy upstream" }
  /-- No sendTransaction is checked. -/
  | warmingUp (healthy : ∃ upstream ∈ cfg.pool, state.pool.isDropped upstream.name now = false)
      (early : Duration.asSecs (now - startedAt) < cfg.health.blockhashWarmupSecs)
      (unchecked : ∀ request id, beginCheck external cfg state now request id = (state, .passed)) :
      ReadyzTells { status := 503, body := "blockhash cache warming up" }
  /-- A sendTransaction with a hash passes at once only on a slot that is not too old. -/
  | ready (healthy : ∃ upstream ∈ cfg.pool, state.pool.isDropped upstream.name now = false)
      (warm : cfg.health.blockhashWarmupSecs ≤ Duration.asSecs (now - startedAt))
      (checked : ∀ request id blockhash, requestBlockhash external request = some blockhash →
        (beginCheck external cfg state now request id).2 = .passed →
          ∃ slot, state.cached blockhash = some slot ∧
            state.pool.tipSlot - slot ≤ cfg.health.maxBlockhashAgeSlots) :
      ReadyzTells { status := 200, body := "ready" }

variable {cfg state now}

theorem startAttempt_of_allDropped
    (dropped : ∀ upstream ∈ cfg.pool, state.pool.isDropped upstream.name now = true)
    (method : String) (loop : ForwardLoop) (draws : Nat → Nat) :
    (startAttempt cfg state now method loop draws).2 = none := by
  have spec := selectAndAdmit_spec cfg state.pool now method loop.excluded draws
  unfold startAttempt
  split
  · rfl
  · rename_i pool upstream isProbe selected
    rw [selected] at spec
    obtain ⟨member, _, admitted⟩ := spec.chosen upstream isProbe rfl
    rw [UpstreamCells.tryAdmit_of_dropped (state.pool.cells upstream.name)
      (dropped upstream member)] at admitted
    cases congrArg Prod.snd admitted

theorem beginCheck_of_dropped
    (dropped : ∀ upstream ∈ cfg.pool, state.pool.isDropped upstream.name now = true)
    (request id : Json) (verification : Verification) :
    (beginCheck external cfg state now request id).2 ≠ .asking verification := by
  have nobody : (cfg.pool.filter fun upstream => !state.pool.isDropped upstream.name now) = [] := by
    rw [List.filter_eq_nil_iff]
    intro upstream member
    rw [dropped upstream member]
    exact Bool.false_ne_true
  unfold beginCheck
  split
  · split
    · exact Checkpoint.noConfusion
    · dsimp only
      split
      · split <;> exact Checkpoint.noConfusion
      · rw [nobody]
        exact Checkpoint.noConfusion
  · exact Checkpoint.noConfusion

theorem any_healthy_iff :
    state.anyHealthy cfg now = true ↔
      ∃ upstream ∈ cfg.pool, state.pool.isDropped upstream.name now = false := by
  rw [AppState.anyHealthy, List.any_eq_true]
  simp only [Bool.not_eq_true']

end Readyz

namespace Traffic

/-- In every reachable state and at every time `/readyz` tells what requests
meet then. -/
theorem readyz_tells {external : External} {cfg : Config} {startedAt : Instant}
    {traffic : Traffic} (reached : (machine external cfg startedAt).Reachable traffic)
    (now : Instant) :
    ReadyzTells external cfg startedAt traffic.state now
      (handleReadyz cfg traffic.state now) := by
  have clock := warmup_of_reachable reached
  have isWarm : traffic.state.blockhashCache.isWarmedUp now =
      decide (cfg.health.blockhashWarmupSecs ≤ Duration.asSecs (now - startedAt)) := by
    have created : traffic.state.blockhashCache.createdAt = startedAt := congrArg Prod.fst clock
    have secs : traffic.state.blockhashCache.warmupSecs = cfg.health.blockhashWarmupSecs :=
      congrArg Prod.snd clock
    rw [BlockhashCache.isWarmedUp, created, secs]
  unfold handleReadyz
  dsimp only
  cases healthy : traffic.state.anyHealthy cfg now with
  | false =>
      have dropped : ∀ upstream ∈ cfg.pool,
          traffic.state.pool.isDropped upstream.name now = true := by
        intro upstream member
        by_contra undropped
        rw [Bool.not_eq_true] at undropped
        rw [any_healthy_iff.mpr ⟨upstream, member, undropped⟩] at healthy
        cases healthy
      exact .noHealthyUpstream dropped (startAttempt_of_allDropped dropped)
        (beginCheck_of_dropped external dropped)
  | true =>
      have some := any_healthy_iff.mp healthy
      cases warm : traffic.state.blockhashCache.isWarmedUp now with
      | false =>
          have early : Duration.asSecs (now - startedAt) < cfg.health.blockhashWarmupSecs := by
            rw [isWarm, decide_eq_false_iff_not] at warm
            omega
          apply ReadyzTells.warmingUp some early
          intro request id
          rw [beginCheck, warm]
          rfl
      | true =>
          have late : cfg.health.blockhashWarmupSecs ≤ Duration.asSecs (now - startedAt) := by
            rw [isWarm, decide_eq_true_eq] at warm
            exact warm
          apply ReadyzTells.ready some late
          intro request id blockhash reads passed
          have begun := beginCheck_begun external cfg traffic.state now request id
          rw [passed] at begun
          cases begun with
          | cold cold =>
              rw [warm] at cold
              cases cold
          | unread unread =>
              rw [reads] at unread
              cases unread
          | fresh own slot ownReads cached age =>
              rw [reads, Option.some_inj] at ownReads
              exact ⟨slot, ownReads ▸ cached, age⟩

theorem readyz_tells_seeded :
    ∃ traffic, (machine .plain .deployment 0).exec seededRun = some traffic ∧
      ReadyzTells .plain .deployment 0 traffic.state 60000000000
        (handleReadyz .deployment traffic.state 60000000000) := by
  have runs : ((machine .plain .deployment 0).exec seededRun).isSome = true := by
    decide +kernel
  obtain ⟨traffic, run⟩ := Option.isSome_iff_exists.mp runs
  exact ⟨traffic, run, readyz_tells ⟨seededRun, run⟩ 60000000000⟩

end Traffic

end Disburse
