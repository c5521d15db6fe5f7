import Disburse.Proxy.BlockhashAge
import Disburse.Proxy.CacheCalls
import Disburse.Proxy.Progress

/-!
Owns where the knowledge of the blockhash check comes from, over all
interleavings: every slot in the cache was reported by a step of the run, and
every sendTransaction that is forwarded was let through by a step of its own,
on a report made before or on the vote of an upstream about its own hash.
-/

namespace Disburse

open Disburse.Library

namespace Traffic

/-- The event brings a slot for a hash into the cache: the monitor seeds it, the
answer to a client's getLatestBlockhash names it, or an upstream vouches for it
and it is taken to be as new as the tip was when the check began. -/
inductive Reports (external : External) (cfg : Config) (blockhash : String) (slot : Nat)
    (traffic : Traffic) : TrafficEvent → Prop where
  | seeded (upstream : String) (body : Json)
      (observed : blockhashObserved (traffic.state.pool.cells upstream).lastSlot body =
        some (blockhash, slot)) :
      Reports external cfg blockhash slot traffic (.other (.seed upstream (some body)))
  | harvested (place : Nat) (exchange : Exchange) (latencyMs : Rat) (now : Instant)
      (task : Task) (found : traffic.callers[place]? = some (.running task))
      (method : task.method = "getLatestBlockhash") (status : Nat) (bytes : Bytes)
      (delivered : Delivered cfg exchange status bytes) (success : isSuccessStatus status = true)
      (body : Json) (parsed : external.fromSlice bytes = some body)
      (observed : blockhashObserved traffic.state.pool.tipSlot body = some (blockhash, slot)) :
      Reports external cfg blockhash slot traffic (.other (.answer place exchange latencyMs now))
  | vouched (place : Nat) (answer : Option Json) (task : Task) (verification : Verification)
      (found : traffic.callers[place]? = some (.verifying task verification))
      (valid : validityOf answer = some true) (own : verification.blockhash = blockhash)
      (tip : verification.tip = slot) :
      Reports external cfg blockhash slot traffic (.vote place answer)

end Traffic

/-! ### What a step puts into the cache -/

theorem BlockhashCache.slotOf_insert_cases {cache : BlockhashCache} {blockhash other : String}
    {slot stored : Nat} (found : (cache.insert blockhash slot).slotOf other = some stored) :
    cache.slotOf other = some stored ∨ other = blockhash ∧ slot = stored := by
  by_cases same : other = blockhash
  · subst same
    rw [slotOf_insert_self, Option.some_inj] at found
    cases known : cache.slotOf other with
    | none =>
        rw [known] at found
        exact Or.inr ⟨rfl, by simpa using found⟩
    | some earlier =>
        rw [known, Option.getD_some] at found
        rcases max_choice earlier slot with old | new
        · exact Or.inl (congrArg some (old.symm.trans found))
        · exact Or.inr ⟨rfl, new.symm.trans found⟩
  · rcases slotOf_insert_other cache slot same with kept | dropped
    · exact Or.inl (kept.symm.trans found)
    · rw [dropped] at found
      cases found

/-- What is in the cache after some calls was there before or is inserted by one. -/
theorem BlockhashCache.slotOf_run_cases {cache : BlockhashCache} {calls : List CacheCall}
    {blockhash : String} {slot : Nat}
    (found : (cache.run calls).slotOf blockhash = some slot) :
    cache.slotOf blockhash = some slot ∨ .insert blockhash slot ∈ calls := by
  induction calls generalizing cache with
  | nil => exact Or.inl found
  | cons call rest inductionHypothesis =>
      have tail : ((cache.apply call).run rest).slotOf blockhash = some slot := found
      rcases inductionHypothesis tail with earlier | later
      · cases call with
        | insert other new =>
            rcases slotOf_insert_cases earlier with kept | ⟨rfl, rfl⟩
            · exact Or.inl kept
            · exact Or.inr List.mem_cons_self
        | getSlot other =>
            have kept := (cache.slotOf_getSlot other blockhash).symm.trans earlier
            exact Or.inl kept
      · exact Or.inr (List.mem_cons_of_mem _ later)

theorem insert_mem_observation {fallback : Nat} {body : Json} {blockhash : String} {slot : Nat} :
    .insert blockhash slot ∈ observation fallback body ↔
      blockhashObserved fallback body = some (blockhash, slot) := by
  rw [observation, List.mem_map]
  constructor
  · rintro ⟨⟨other, seen⟩, member, same⟩
    cases same
    exact Option.mem_toList.mp member
  · intro observed
    exact ⟨(blockhash, slot), Option.mem_toList.mpr observed, rfl⟩

section Steps

variable {external : External} {cfg : Config} {traffic : Traffic} {blockhash : String} {slot : Nat}

theorem insert_mem_harvested {state : AppState} {method : String} {bytes : Bytes} :
    .insert blockhash slot ∈ harvested external state method bytes ↔
      method = "getLatestBlockhash" ∧ ∃ body, external.fromSlice bytes = some body ∧
        blockhashObserved state.pool.tipSlot body = some (blockhash, slot) := by
  unfold harvested
  split
  · rename_i latest
    simp [latest, insert_mem_observation]
  · rename_i other
    simp [other]

/-- An attempt succeeds with a body that was delivered with a success status. -/
theorem delivered_of_attemptOutcome {upstream : Upstream} {id : Json} {exchange : Exchange}
    {bytes : Bytes} {contentType : Option String}
    (succeeded : attemptOutcome external cfg upstream id exchange = .ok bytes contentType) :
    ∃ status, Delivered cfg exchange status bytes ∧ isSuccessStatus status = true := by
  unfold attemptOutcome at succeeded
  split at succeeded
  · cases succeeded
  · rename_i response
    split at succeeded
    · cases succeeded
    · cases succeeded
    · rename_i status own body read
      split at succeeded
      · rename_i success
        cases succeeded
        exact ⟨status, ⟨response, contentType, rfl, read⟩, (Bool.and_eq_true_iff.mp success).1⟩
      · cases succeeded

namespace Traffic

theorem reports_of_caller {event : TrafficEvent} {place : Nat} {caller : Caller}
    (named : event.caller = some place) (found : traffic.callers[place]? = some caller)
    (inserted : .insert blockhash slot ∈ caller.cacheCalls external cfg traffic.state event) :
    Reports external cfg blockhash slot traffic event := by
  cases caller with
  | verifying task verification =>
      cases event with
      | start => cases inserted
      | other => cases inserted
      | vote _ answer =>
          cases named
          simp only [Caller.cacheCalls, Verification.insertions] at inserted
          split at inserted
          · rename_i valid
            cases List.mem_singleton.mp inserted
            exact .vouched place answer task verification found valid rfl rfl
          · cases inserted
          · cases inserted
  | running task =>
      cases event with
      | vote => cases inserted
      | start _ now =>
          simp only [Caller.cacheCalls, AppState.lookups] at inserted
          split at inserted
          · split at inserted
            · simp at inserted
            · cases inserted
          · cases inserted
      | other event =>
          cases event with
          | arrive | enter | attempt | settle | deadline | disconnect | poll | seed =>
              cases inserted
          | answer _ exchange latencyMs now =>
              cases named
              simp only [Caller.cacheCalls] at inserted
              split at inserted
              · rename_i flight phase
                cases outcome : attemptOutcome external cfg flight.upstream
                    (requestId task.request) exchange with
                | err error =>
                    rw [outcome] at inserted
                    cases inserted
                | ok bytes contentType =>
                    rw [outcome] at inserted
                    obtain ⟨method, body, parsed, observed⟩ := insert_mem_harvested.mp inserted
                    obtain ⟨status, delivered, success⟩ := delivered_of_attemptOutcome outcome
                    exact .harvested place exchange latencyMs now task found method status bytes
                      delivered success body parsed observed
              · cases inserted

/-- What a step inserts into the cache it reports. -/
theorem reports_of_inserted {event : TrafficEvent}
    (inserted : .insert blockhash slot ∈ traffic.cacheCalls external cfg event) :
    Reports external cfg blockhash slot traffic event := by
  unfold cacheCalls at inserted
  split at inserted
  · rename_i upstream body
    cases body with
    | none => cases inserted
    | some body =>
        exact .seeded upstream body (insert_mem_observation.mp (by simpa using inserted))
  · obtain ⟨caller, present, inserted⟩ := List.mem_flatMap.mp inserted
    obtain ⟨place, named, found⟩ := Option.bind_eq_some_iff.mp (Option.mem_toList.mp present)
    exact reports_of_caller named found inserted

end Traffic

end Steps

/-! ### What a request waits on -/

/-- A request that was not forwarded yet has no method noted, and waits for votes
on the hash that its transaction names. -/
def Caller.Checking (external : External) : Caller → Prop
  | .verifying task verification =>
      task.method = "" ∧ requestBlockhash external task.request = some verification.blockhash
  | .running task => task.phase = .entering → task.method = ""

section Checking

variable {external : External} {cfg : Config} {state : AppState}

theorem Task.forward_request (task : Task) (method : String) :
    (task.forward external method).request = task.request := by
  unfold forward
  split <;> rfl

theorem Task.forward_checking (task : Task) (method : String) :
    (Caller.running (task.forward external method)).Checking external := by
  unfold forward
  split
  · exact fun entering => nomatch entering
  · exact fun entering => nomatch entering

theorem Task.proceed_checking (task : Task) {checked : AppState × Checkpoint}
    (asks : ∀ verification, checked.2 = .asking verification → task.method = "" ∧
      requestBlockhash external task.request = some verification.blockhash) :
    (task.proceed external checked).2.Checking external := by
  rcases checked with ⟨_, _ | _ | verification⟩
  · exact task.forward_checking "sendTransaction"
  · exact fun entering => nomatch entering
  · exact asks verification rfl

theorem Task.Moves.checking {task : Task} {event : SystemEvent} {result : AppState × Task}
    (moves : task.Moves external cfg state event result)
    (cut : ∀ place answers now, event ≠ .enter place answers now) :
    result.2.phase ≠ .entering ∧ result.2.method = task.method ∧
      result.2.request = task.request := by
  cases moves with
  | enters place answers now => exact absurd rfl (cut place answers now)
  | leaves => exact ⟨Phase.noConfusion, rfl, rfl⟩
  | expires => exact ⟨Phase.noConfusion, rfl, rfl⟩
  | hangsUp => exact ⟨Phase.noConfusion, rfl, rfl⟩
  | answers => exact ⟨Phase.noConfusion, rfl, rfl⟩
  | attempts _ draws now phase =>
      unfold attempt
      split
      · exact ⟨Phase.noConfusion, rfl, rfl⟩
      · split <;> exact ⟨Phase.noConfusion, rfl, rfl⟩
  | settles =>
      unfold settle
      dsimp only
      split <;> exact ⟨Phase.noConfusion, rfl, rfl⟩

theorem Traffic.checking_of_reachable {startedAt : Instant} {traffic : Traffic}
    (reached : (machine external cfg startedAt).Reachable traffic) :
    ∀ caller ∈ traffic.callers, caller.Checking external := by
  refine forall_callers (fun _ _ _ => rfl) ?_ reached
  intro state caller event next checking stepped
  cases Caller.step_moves stepped with
  | refuses => exact fun phase => nomatch phase
  | checks task _ now entering =>
      apply task.proceed_checking
      intro verification asking
      have begun := beginCheck_begun external cfg state now task.request (requestId task.request)
      rw [asking] at begun
      cases begun with
      | asks _ unknown _ => exact ⟨checking entering, unknown.reads⟩
  | forwards task => exact task.forward_checking _
  | votes task verification _ answer =>
      apply task.proceed_checking
      intro later asking
      have resumed := verification.resume_resumed state (requestId task.request) answer
      rw [asking] at resumed
      cases resumed with
      | next _ _ same _ => exact ⟨checking.1, same ▸ checking.2⟩
  | hangsUp => exact fun entering => nomatch entering
  | works _ _ _ started moves =>
      exact fun entering => absurd entering (moves.checking started).1

/-- What goes on to be forwarded as a sendTransaction has passed its check. -/
theorem Task.passed_of_proceed {own task : Task} {checked : AppState × Checkpoint}
    (unsent : own.method = "") (after : (own.proceed external checked).2 = .running task)
    (sent : task.method = "sendTransaction") :
    checked.2 = .passed ∧ task.request = own.request := by
  rcases checked with ⟨_, _ | _ | _⟩
  · cases after
    exact ⟨rfl, own.forward_request _⟩
  · cases after
    rw [reply, unsent] at sent
    exact absurd sent (by decide)
  · cases after

end Checking

/-! ### What lets a sendTransaction through -/

namespace Traffic

/-- The step of the request at `place` that lets it through: the cache is cold,
no hash can be read, the hash is in the cache and not too old, or an upstream
says that it is valid. -/
inductive Admits (external : External) (cfg : Config) (place : Nat) (request : Json)
    (traffic : Traffic) : TrafficEvent → Prop where
  | cold (now : Instant) (cold : traffic.state.blockhashCache.isWarmedUp now = false) :
      Admits external cfg place request traffic (.start place now)
  | unread (now : Instant) (unread : requestBlockhash external request = none) :
      Admits external cfg place request traffic (.start place now)
  | fresh (now : Instant) (blockhash : String) (slot : Nat)
      (reads : requestBlockhash external request = some blockhash)
      (cached : traffic.state.cached blockhash = some slot)
      (age : traffic.state.pool.tipSlot - slot ≤ cfg.health.maxBlockhashAgeSlots) :
      Admits external cfg place request traffic (.start place now)
  | vouched (answer : Option Json) (task : Task) (verification : Verification)
      (found : traffic.callers[place]? = some (.verifying task verification))
      (reads : requestBlockhash external request = some verification.blockhash)
      (valid : validityOf answer = some true) :
      Admits external cfg place request traffic (.vote place answer)

section Run

variable {external : External} {cfg : Config} {startedAt : Instant} {traffic next : Traffic}
  {events : List TrafficEvent} {place : Nat}

/-- The request at `place` is this one and was forwarded as a sendTransaction. -/
def Forwarded (place : Nat) (request : Json) (traffic : Traffic) : Prop :=
  ∃ task, traffic.callers[place]? = some (.running task) ∧ task.request = request ∧
    task.method = "sendTransaction"

/-- A request comes to be forwarded by a step of its own that lets it through. -/
theorem admits_of_forwarded {caller : Caller} {event : TrafficEvent}
    {result : AppState × Caller} {task : Task} (named : event.caller = some place)
    (found : traffic.callers[place]? = some caller) (checking : caller.Checking external)
    (stepped : caller.step external cfg traffic.state event = some result)
    (after : result.2 = .running task) (sent : task.method = "sendTransaction") :
    Forwarded place task.request traffic ∨
      Admits external cfg place task.request traffic event := by
  cases Caller.step_moves stepped with
  | refuses own _ _ entering =>
      cases after
      rw [Task.reply, checking entering] at sent
      exact absurd sent (by decide)
  | checks own _ now entering =>
      cases named
      obtain ⟨passed, same⟩ := Task.passed_of_proceed (checking entering) after sent
      rw [same]
      have begun := beginCheck_begun external cfg traffic.state now own.request
        (requestId own.request)
      rw [passed] at begun
      cases begun with
      | cold cold => exact Or.inr (.cold now cold)
      | unread unread => exact Or.inr (.unread now unread)
      | fresh blockhash slot reads cached age =>
          exact Or.inr (.fresh now blockhash slot reads cached age)
  | forwards own _ _ method entering _ other =>
      cases after
      unfold Task.forward at sent
      split at sent
      · rw [Task.finish, checking entering] at sent
        exact absurd sent (by decide)
      · exact absurd sent other
  | votes own verification _ answer =>
      cases named
      obtain ⟨passed, same⟩ := Task.passed_of_proceed checking.1 after sent
      rw [same]
      have resumed := verification.resume_resumed traffic.state (requestId own.request) answer
      rw [passed] at resumed
      cases resumed with
      | vouched valid =>
          exact Or.inr (.vouched answer own verification found checking.2 valid)
  | hangsUp =>
      cases after
      rw [checking.1] at sent
      exact absurd sent (by decide)
  | works own _ _ started moves =>
      cases after
      have kept := (moves.checking started).2
      exact Or.inl ⟨own, found, kept.2.symm, kept.1.symm.trans sent⟩

variable (external cfg) in
/-- Every slot in the cache was reported by a step of the run. -/
theorem someStep_reports {blockhash : String} {slot : Nat}
    (run : (machine external cfg startedAt).exec events = some traffic)
    (cached : traffic.state.cached blockhash = some slot) :
    (machine external cfg startedAt).SomeStep (Reports external cfg blockhash slot)
      (machine external cfg startedAt).init events := by
  have absent : ¬ (machine external cfg startedAt).init.state.cached blockhash = some slot := by
    intro known
    cases known
  apply Machine.someStep_of_holds (P := fun traffic : Traffic =>
    traffic.state.cached blockhash = some slot) absent _ run cached
  intro before event after _ stepped known
  rw [AppState.cached, step_cache stepped] at known
  exact (BlockhashCache.slotOf_run_cases known).imp_right reports_of_inserted

theorem someStep_admits {request : Json}
    (run : (machine external cfg startedAt).exec events = some traffic)
    (forwarded : Forwarded place request traffic) :
    (machine external cfg startedAt).SomeStep (Admits external cfg place request)
      (machine external cfg startedAt).init events := by
  have absent : ¬ Forwarded place request (machine external cfg startedAt).init := by
    rintro ⟨task, found, _⟩
    cases found
  apply Machine.someStep_of_holds absent _ run forwarded
  rintro before event after reached stepped ⟨task, found, rfl, sent⟩
  have kept (same : before.callers[place]? = some (.running task)) :
      Forwarded place task.request before := ⟨task, same, rfl, sent⟩
  cases step_moves stepped with
  | calls _ own caller result named ownFound taken =>
      by_cases same : place = own
      · subst same
        rw [moved, List.getElem?_set_self (List.getElem?_eq_some_iff.mp ownFound).1,
          Option.some_inj] at found
        exact admits_of_forwarded named ownFound
          (checking_of_reachable reached caller (List.mem_of_getElem? ownFound)) taken found sent
      · exact Or.inl (kept ((List.getElem?_set_ne (Ne.symm same)).symm.trans found))
  | arrives handler request =>
      rw [List.getElem?_append] at found
      split at found
      · exact Or.inl (kept found)
      · obtain ⟨_, arrived⟩ := List.getElem?_eq_some_iff.mp found
        rw [List.getElem_singleton] at arrived
        cases arrived
        have unsent : "" = "sendTransaction" := sent
        exact absurd unsent (by decide)
  | polls => exact Or.inl (kept found)
  | seeds => exact Or.inl (kept found)

/-- In every run a sendTransaction that is forwarded was let through by a step of
its own, and the slot that the cache then had for its hash, if any, was reported
by a step before that. -/
theorem forwarded_send_admitted {task : Task}
    (run : (machine external cfg startedAt).exec events = some traffic)
    (found : traffic.callers[place]? = some (.running task))
    (sent : task.method = "sendTransaction") :
    ∃ before event after middle, events = before ++ event :: after ∧
      (machine external cfg startedAt).exec before = some middle ∧
      middle.Admits external cfg place task.request event ∧
      ∀ blockhash slot, middle.state.cached blockhash = some slot →
        (machine external cfg startedAt).SomeStep (Reports external cfg blockhash slot)
          (machine external cfg startedAt).init before := by
  obtain ⟨before, event, after, middle, cut, first, admits⟩ :=
    (someStep_admits run ⟨task, found, rfl, sent⟩).exists_split
  exact ⟨before, event, after, middle, cut, first, admits,
    fun _ _ cached => someStep_reports external cfg first cached⟩

end Run

/-- The monitor sees the hash, and a minute after start-up a client sends a
transaction with it. -/
def seededRun : List TrafficEvent :=
  [.other (.seed "helius" (some (latestBlockhash bareBlockhash 10))),
    .other (.arrive .raw bareRequest),
    .start 0 60000000000]

theorem forwarded_send_admitted_seeded :
    ∃ traffic task, (machine .plain .deployment 0).exec seededRun = some traffic ∧
      traffic.callers[0]? = some (.running task) ∧ task.method = "sendTransaction" ∧
      ∃ before event after middle, seededRun = before ++ event :: after ∧
        (machine .plain .deployment 0).exec before = some middle ∧
        middle.Admits .plain .deployment 0 task.request event ∧
        ∀ blockhash slot, middle.state.cached blockhash = some slot →
          (machine .plain .deployment 0).SomeStep (Reports .plain .deployment blockhash slot)
            (machine .plain .deployment 0).init before := by
  have forwarded : ((machine .plain .deployment 0).exec seededRun).map (fun traffic =>
      traffic.callers.map fun caller =>
        match caller with
        | .verifying _ _ => false
        | .running task => decide (task.method = "sendTransaction")) = some [true] := by
    decide +kernel
  obtain ⟨traffic, run, all⟩ := Option.map_eq_some_iff.mp forwarded
  obtain ⟨caller, only, sends⟩ := List.map_eq_singleton_iff.mp all
  have found : traffic.callers[0]? = some caller := by
    rw [only]
    rfl
  cases caller with
  | verifying => cases sends
  | running task =>
      have sent : task.method = "sendTransaction" := of_decide_eq_true sends
      exact ⟨traffic, task, run, found, sent, forwarded_send_admitted run found sent⟩

end Traffic

end Disburse
