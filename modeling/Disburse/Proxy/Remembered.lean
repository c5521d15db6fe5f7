import Disburse.Proxy.BlockhashAge
import Disburse.Proxy.CacheCalls

/-!
Owns what the proxy remembers of the blockhashes it has seen: in every run the
check of a sendTransaction is decided by the slots that earlier steps inserted
for its hash, and none of them is forgotten while the hashes fit into the cache.
-/

namespace Disburse

open Disburse.Library

namespace Traffic

/-- The step inserts the slot for the hash. -/
def Inserts (external : External) (cfg : Config) (blockhash : String) (slot : Nat)
    (traffic : Traffic) (event : TrafficEvent) : Prop :=
  .insert blockhash slot ∈ traffic.cacheCalls external cfg event

/-- The run has inserted the hash, and since it was last touched fewer others have
been than the cache has room for. -/
def Remembers (external : External) (cfg : Config) (startedAt : Instant)
    (events : List TrafficEvent) (blockhash : String) : Prop :=
  (∃ slot, (machine external cfg startedAt).SomeStep (Inserts external cfg blockhash slot)
    (machine external cfg startedAt).init events) ∧
  ((remembered external cfg startedAt events).touched.takeWhile
    fun other => other != blockhash).toFinset.card < cacheRoom cfg

/-- Where the check of a request has led that is at `place` in this traffic, when
the newest of the slots remembered for its hash is this one: on to an upstream, or
to the stale error. -/
def DecidedByAge (external : External) (cfg : Config) (before : AppState) (place : Nat)
    (task : Task) (slot : Nat) (traffic : Traffic) : Prop :=
  traffic.callers[place]? = some (.running
    (if cfg.health.maxBlockhashAgeSlots < before.pool.tipSlot - slot then
      task.reply (staleError (requestId task.request))
    else task.forward external "sendTransaction"))

/-- Where it has led when the hash is not remembered: to the question to the first
upstream that can be asked, or to the stale error when none can. -/
inductive Unremembered (cfg : Config) (before : AppState) (now : Instant) (place : Nat)
    (task : Task) (blockhash : String) (traffic : Traffic) : Prop where
  | nobody (dropped : before.askable cfg now = [])
      (rejected : traffic.callers[place]? =
        some (.running (task.reply (staleError (requestId task.request)))))
  | asks (verification : Verification) (about : verification.blockhash = blockhash)
      (askable : before.askable cfg now = verification.asked :: verification.rest)
      (waits : traffic.callers[place]? = some (.verifying task verification))

section Run

variable {external : External} {cfg : Config} {startedAt : Instant} {traffic : Traffic}
  {events : List TrafficEvent} {place : Nat} {task : Task} {now : Instant} {blockhash : String}

theorem insert_mem_callsOf {slot : Nat} :
    .insert blockhash slot ∈ callsOf external cfg startedAt events ↔
      (machine external cfg startedAt).SomeStep (Inserts external cfg blockhash slot)
        (machine external cfg startedAt).init events :=
  Machine.mem_outputs

theorem remembers_iff :
    Remembers external cfg startedAt events blockhash ↔
      Recent (cacheRoom cfg) (remembered external cfg startedAt events).touched blockhash := by
  rw [Remembers, Recent, remembered, MaxMap.mem_touched_run]
  simp only [insert_mem_callsOf]

/-- A sendTransaction starts with its check. -/
theorem step_start_send (found : traffic.callers[place]? = some (.running task))
    (phase : task.phase = .entering)
    (sends : (task.request.get "method").bind Json.asStr = some "sendTransaction") :
    (machine external cfg startedAt).step traffic (.start place now) =
      some (traffic.moved place (task.proceed external
        (beginCheck external cfg traffic.state now task.request (requestId task.request)))) := by
  show traffic.stepCaller external cfg place (.start place now) = _
  rw [stepCaller, found, Option.bind_some, Caller.step, phase]
  dsimp only
  rw [Option.map_some, Task.start, sends]
  dsimp only
  rw [if_pos rfl]

/-- Where a check leads whose hash the cache knows. -/
theorem decidedByAge_of_begun {checked : AppState × Checkpoint} {slot : Nat}
    (begun : Begun external cfg traffic.state now task.request (requestId task.request) checked.2)
    (warm : traffic.state.blockhashCache.isWarmedUp now = true)
    (reads : requestBlockhash external task.request = some blockhash)
    (cached : traffic.state.cached blockhash = some slot)
    (found : traffic.callers[place]? = some (.running task)) :
    DecidedByAge external cfg traffic.state place task slot
      (traffic.moved place (task.proceed external checked)) := by
  rw [DecidedByAge, moved, List.getElem?_set_self (List.getElem?_eq_some_iff.mp found).1,
    Option.some_inj]
  rcases checked with ⟨after, checkpoint⟩
  have seen : ∀ {other}, requestBlockhash external task.request = some other →
      traffic.state.cached other = some slot := by
    intro other same
    rw [reads, Option.some_inj] at same
    exact same ▸ cached
  have known : ∀ {other}, traffic.state.Unknown external now task.request other → False := by
    intro other unknown
    have unseen := unknown.unseen
    rw [seen unknown.reads] at unseen
    cases unseen
  cases begun with
  | cold cold =>
      rw [warm] at cold
      cases cold
  | unread unread =>
      rw [reads] at unread
      cases unread
  | fresh other stored own same age =>
      rw [seen own, Option.some_inj] at same
      rw [same, if_neg (Nat.not_lt.mpr age)]
      rfl
  | tooOld old =>
      obtain ⟨other, stored, own, same, aged⟩ := old.aged
      rw [seen own, Option.some_inj] at same
      rw [same, if_pos aged]
      rfl
  | nobody other unknown => exact (known unknown).elim
  | asks verification unknown => exact (known unknown).elim

/-- Where a check leads whose hash the cache does not know. -/
theorem unremembered_of_begun {checked : AppState × Checkpoint}
    (begun : Begun external cfg traffic.state now task.request (requestId task.request) checked.2)
    (warm : traffic.state.blockhashCache.isWarmedUp now = true)
    (reads : requestBlockhash external task.request = some blockhash)
    (unseen : traffic.state.cached blockhash = none)
    (found : traffic.callers[place]? = some (.running task)) :
    Unremembered cfg traffic.state now place task blockhash
      (traffic.moved place (task.proceed external checked)) := by
  have placed : (traffic.moved place (task.proceed external checked)).callers[place]? =
      some (task.proceed external checked).2 :=
    List.getElem?_set_self (List.getElem?_eq_some_iff.mp found).1
  rcases checked with ⟨after, checkpoint⟩
  have own : ∀ {other}, requestBlockhash external task.request = some other →
      other = blockhash := by
    intro other same
    rw [reads, Option.some_inj] at same
    exact same.symm
  have absent : ∀ {other slot}, requestBlockhash external task.request = some other →
      traffic.state.cached other = some slot → False := by
    intro other slot same cached
    rw [own same, unseen] at cached
    cases cached
  cases begun with
  | cold cold =>
      rw [warm] at cold
      cases cold
  | unread unread =>
      rw [reads] at unread
      cases unread
  | fresh other stored same cached => exact (absent same cached).elim
  | tooOld old =>
      obtain ⟨other, stored, same, cached, _⟩ := old.aged
      exact (absent same cached).elim
  | nobody other unknown dropped => exact .nobody dropped placed
  | asks verification unknown askable =>
      exact .asks verification (own unknown.reads) askable placed

/-- In every run the check of a sendTransaction with a readable hash, once the cache
is warm, is decided by what the run has inserted: by the age of the greatest slot
kept for the hash while it is remembered, and otherwise by the upstreams. -/
theorem check_by_memory (run : (machine external cfg startedAt).exec events = some traffic)
    (found : traffic.callers[place]? = some (.running task)) (phase : task.phase = .entering)
    (sends : (task.request.get "method").bind Json.asStr = some "sendTransaction")
    (warm : traffic.state.blockhashCache.isWarmedUp now = true)
    (reads : requestBlockhash external task.request = some blockhash) :
    let kept := (remembered external cfg startedAt events).slots blockhash
    ∃ next, (machine external cfg startedAt).step traffic (.start place now) = some next ∧
      (Remembers external cfg startedAt events blockhash → ∃ slot,
        IsGreatest {inserted | inserted ∈ kept} slot ∧
          DecidedByAge external cfg traffic.state place task slot next) ∧
      (¬ Remembers external cfg startedAt events blockhash →
        Unremembered cfg traffic.state now place task blockhash next) ∧
      ∀ slot ∈ kept, (machine external cfg startedAt).SomeStep
        (Inserts external cfg blockhash slot) (machine external cfg startedAt).init events := by
  intro kept
  have refines := refines_of_run run
  have known : traffic.state.cached blockhash =
      (remembered external cfg startedAt events).getSlot (cacheRoom cfg) blockhash :=
    MaxMap.slotOf_eq refines blockhash
  have begun := beginCheck_begun external cfg traffic.state now task.request
    (requestId task.request)
  rw [remembers_iff]
  refine ⟨_, step_start_send found phase sends, fun recent => ?_, fun forgotten => ?_, ?_⟩
  · obtain ⟨slot, newest⟩ :=
      Option.isSome_iff_exists.mp ((MaxMap.isSome_getSlot_iff refines).mpr recent)
    have highest := newest
    rw [MaxMap.getSlot, if_pos recent] at highest
    exact ⟨slot, List.max?_eq_some_iff.mp highest,
      decidedByAge_of_begun begun warm reads (known.trans newest) found⟩
  · rw [MaxMap.getSlot, if_neg forgotten] at known
    exact unremembered_of_begun begun warm reads known found
  · exact fun slot member => insert_mem_callsOf.mp (MaxMap.inserted_of_mem_slots member)

/-- The monitors of two upstreams see a hash at two slots, and a client sends a
transaction with it. -/
def twiceSeen : List TrafficEvent :=
  [.other (.seed "helius" (some (latestBlockhash bareBlockhash 10))),
    .other (.seed "triton" (some (latestBlockhash bareBlockhash 100))),
    .other (.arrive .raw bareRequest)]

/-- What that run leads to. -/
def twiceSeenTraffic : Traffic :=
  { state := ((AppState.start .deployment 0).seedCache "helius"
      (some (latestBlockhash bareBlockhash 10))).seedCache "triton"
      (some (latestBlockhash bareBlockhash 100))
    callers := [.running (.arrive .deployment .raw bareRequest)] }

theorem twiceSeenTraffic_reached :
    (machine .plain .deployment 0).exec twiceSeen = some twiceSeenTraffic := rfl

theorem check_by_memory_twiceSeen :
    Remembers .plain .deployment 0 twiceSeen bareBlockhash ∧
      ∃ next, (machine .plain .deployment 0).step twiceSeenTraffic (.start 0 60000000000) =
        some next ∧ ∃ slot,
          IsGreatest {inserted | inserted ∈
            (remembered .plain .deployment 0 twiceSeen).slots bareBlockhash} slot ∧
          DecidedByAge .plain .deployment twiceSeenTraffic.state 0
            (.arrive .deployment .raw bareRequest) slot next := by
  have warm : twiceSeenTraffic.state.blockhashCache.isWarmedUp 60000000000 = true := by
    decide +kernel
  have reads : requestBlockhash .plain (Task.arrive .deployment .raw bareRequest).request =
      some bareBlockhash :=
    requestBlockhash_of_carries bareRequest_carries base58Decode_encode External.plain_base64
  have known : Remembers .plain .deployment 0 twiceSeen bareBlockhash := by
    rw [remembers_iff]
    decide +kernel
  have found : twiceSeenTraffic.callers[0]? =
      some (.running (.arrive .deployment .raw bareRequest)) := rfl
  obtain ⟨next, stepped, decided, _⟩ :=
    check_by_memory twiceSeenTraffic_reached found rfl rfl warm reads
  exact ⟨known, next, stepped, decided known⟩

/-- While all hashes that a run inserts fit into the cache, it knows for each hash the
greatest of all slots inserted for it, and no hash that was not inserted. -/
theorem cached_iff_isGreatest (run : (machine external cfg startedAt).exec events = some traffic)
    (seen : Finset String) (fits : seen.card ≤ cfg.health.blockhashCacheSize)
    (all : ∀ blockhash slot, (machine external cfg startedAt).SomeStep
      (Inserts external cfg blockhash slot) (machine external cfg startedAt).init events →
        blockhash ∈ seen) (blockhash : String) (slot : Nat) :
    traffic.state.cached blockhash = some slot ↔
      IsGreatest {inserted | (machine external cfg startedAt).SomeStep
        (Inserts external cfg blockhash inserted) (machine external cfg startedAt).init events}
        slot := by
  have room : seen.card ≤ cacheRoom cfg := fits.trans (Nat.le_max_left _ _)
  have inserted : ∀ other stored, .insert other stored ∈ callsOf external cfg startedAt events →
      other ∈ seen := fun other stored member => all other stored (insert_mem_callsOf.mp member)
  have slots : {inserted | (machine external cfg startedAt).SomeStep
      (Inserts external cfg blockhash inserted) (machine external cfg startedAt).init events} =
      {stored | stored ∈ (remembered external cfg startedAt events).slots blockhash} := by
    ext stored
    exact insert_mem_callsOf.symm.trans (MaxMap.mem_slots_iff room inserted).symm
  have known : traffic.state.cached blockhash =
      (remembered external cfg startedAt events).getSlot (cacheRoom cfg) blockhash :=
    MaxMap.slotOf_eq (refines_of_run run) blockhash
  rw [known, slots, remembered, MaxMap.getSlot_of_fits room inserted]
  exact List.max?_eq_some_iff

theorem cached_iff_isGreatest_twiceSeen :
    IsGreatest {inserted | (machine .plain .deployment 0).SomeStep
      (Inserts .plain .deployment bareBlockhash inserted) (machine .plain .deployment 0).init
        twiceSeen} 100 := by
  have calls : callsOf .plain .deployment 0 twiceSeen =
      [.insert bareBlockhash 10, .insert bareBlockhash 100] := rfl
  have only : ∀ other stored, (machine .plain .deployment 0).SomeStep
      (Inserts .plain .deployment other stored) (machine .plain .deployment 0).init twiceSeen →
        other ∈ ({bareBlockhash} : Finset String) := by
    intro other stored some
    rw [← insert_mem_callsOf, calls] at some
    rw [Finset.mem_singleton]
    simp only [List.mem_cons, CacheCall.insert.injEq, List.not_mem_nil, or_false] at some
    exact some.elim And.left And.left
  have cached : twiceSeenTraffic.state.cached bareBlockhash = some 100 := by decide +kernel
  exact (cached_iff_isGreatest twiceSeenTraffic_reached {bareBlockhash} (by decide) only
    bareBlockhash 100).mp cached

end Run

end Traffic

end Disburse
