import Disburse.Proxy.Server
import Disburse.Solana.Transaction
import Disburse.Error

/-!
Owns the blockhash check of sendTransaction: which hash a request is about,
the vote of the upstreams on an unknown hash, and the decision.
-/

namespace Disburse

open Disburse.Library

/-- What each upstream would answer to isBlockhashValid; `none` stands for a
transport failure or a body that is not JSON. -/
abbrev Answers := String → Option Json

/-- The boolean an answer carries at `/result/value`. -/
def validityOf (answer : Option Json) : Option Bool :=
  answer.bind fun body => (body.pointer ["result", "value"]).bind Json.asBool

/-- The first boolean answer of the upstreams that are not dropped, in config order. -/
def verifyBlockhash (cfg : Config) (pool : UpstreamPool) (now : Instant) (answers : Answers) :
    Option Bool :=
  let healthy := cfg.pool.filter fun upstream => !pool.isDropped upstream.name now
  healthy.findSome? fun upstream => validityOf (answers upstream.name)

/-- The hash that the transaction in `params` names, if it can be read. -/
def requestBlockhash (external : External) (request : Json) : Option String := do
  let params ← (request.get "params").bind Json.asArray
  let data ← params.head?.bind Json.asStr
  let encoding := ((params[1]?.bind fun options => options.get "encoding").bind
    Json.asStr).getD "base58"
  let txBytes ← decodeTx external data encoding
  extractBlockhash external txBytes

def staleMessage : String := "blockhash too old or unknown, would likely fail on chain"

/-- The reply of a rejected call. -/
def staleError (id : Json) : Json := jsonrpcError id .blockhashStale staleMessage

def rejectStale (state : AppState) (id : Json) : AppState × Option Json :=
  ({ state with
      metrics := { state.metrics with
        blockhashRejections := state.metrics.blockhashRejections + 1 } },
    some (staleError id))

/-- The check of one request; the error to reply with when it is rejected. -/
def checkBlockhashFreshness (external : External) (cfg : Config) (state : AppState)
    (now : Instant) (answers : Answers) (request id : Json) : AppState × Option Json :=
  if state.blockhashCache.isWarmedUp now then
    match requestBlockhash external request with
    | none => (state, none)
    | some blockhash =>
        let tip := state.pool.tipSlot
        let maxAge := cfg.health.maxBlockhashAgeSlots
        let looked := { state with blockhashCache := (state.blockhashCache.getSlot blockhash).2 }
        match (state.blockhashCache.getSlot blockhash).1 with
        | some seenSlot =>
            if maxAge < tip - seenSlot then rejectStale looked id else (looked, none)
        | none =>
            match verifyBlockhash cfg state.pool now answers with
            | some true =>
                ({ looked with blockhashCache := looked.blockhashCache.insert blockhash tip }, none)
            | some false => rejectStale looked id
            | none => rejectStale looked id
  else (state, none)

/-! ### The decision -/

/-- Before `upstream`, in config order, nobody who was asked gave a boolean, and
`upstream` was asked and answered true. -/
def Vouches (cfg : Config) (pool : UpstreamPool) (now : Instant) (answers : Answers) : Prop :=
  ∃ before upstream after, cfg.pool = before ++ upstream :: after ∧
    pool.isDropped upstream.name now = false ∧
    validityOf (answers upstream.name) = some true ∧
    ∀ other ∈ before, pool.isDropped other.name now = false →
      validityOf (answers other.name) = none

private theorem findSome?_filter {α β : Type} (keep : α → Bool) (f : α → Option β)
    (values : List α) :
    (values.filter keep).findSome? f = values.findSome? fun value =>
      if keep value then f value else none := by
  rw [← List.head?_filterMap, ← List.head?_filterMap, List.filterMap_filter]

/-- The verdict is the boolean of the first upstream that gives one. -/
theorem verifyBlockhash_eq_some {cfg : Config} {pool : UpstreamPool} {now : Instant}
    {answers : Answers} {valid : Bool} :
    verifyBlockhash cfg pool now answers = some valid ↔
      ∃ before upstream after, cfg.pool = before ++ upstream :: after ∧
        pool.isDropped upstream.name now = false ∧
        validityOf (answers upstream.name) = some valid ∧
        ∀ other ∈ before, pool.isDropped other.name now = false →
          validityOf (answers other.name) = none := by
  unfold verifyBlockhash
  dsimp only
  rw [findSome?_filter, List.findSome?_eq_some_iff]
  simp only [Option.ite_none_right_eq_some, Bool.not_eq_true', ite_eq_right_iff, and_assoc]

theorem verifyBlockhash_eq_true (cfg : Config) (pool : UpstreamPool) (now : Instant)
    (answers : Answers) :
    verifyBlockhash cfg pool now answers = some true ↔ Vouches cfg pool now answers :=
  verifyBlockhash_eq_some

/-- The decision on a hash: too old in the cache, or unknown there and not
vouched for. -/
def StaleBlockhash (cfg : Config) (state : AppState) (now : Instant) (answers : Answers)
    (blockhash : String) : Prop :=
  match state.blockhashCache.slotOf blockhash with
  | some slot => cfg.health.maxBlockhashAgeSlots < state.pool.tipSlot - slot
  | none => ¬ Vouches cfg state.pool now answers

/-- What a rejection leaves behind: one more rejection counted, the slots of the
cache and everything else as before. -/
structure RejectedFrom (before after : AppState) : Prop where
  pool : after.pool = before.pool
  metrics : after.metrics = { before.metrics with
    blockhashRejections := before.metrics.blockhashRejections + 1 }
  cache : ∀ blockhash, after.blockhashCache.slotOf blockhash =
    before.blockhashCache.slotOf blockhash

/-- What a passed check leaves behind: at most the cache differs. -/
structure PassedFrom (before after : AppState) : Prop where
  pool : after.pool = before.pool
  metrics : after.metrics = before.metrics

/-- The check of a warm cache, for a request whose hash can be read. -/
theorem checkBlockhashFreshness_spec {external : External} (cfg : Config) {state : AppState}
    {now : Instant} (answers : Answers) {request : Json} {blockhash : String} (id : Json)
    (warm : state.blockhashCache.isWarmedUp now = true)
    (found : requestBlockhash external request = some blockhash) :
    let checked := checkBlockhashFreshness external cfg state now answers request id
    (StaleBlockhash cfg state now answers blockhash ∧ checked.2 = some (staleError id) ∧
        RejectedFrom state checked.1) ∨
      (¬ StaleBlockhash cfg state now answers blockhash ∧ checked.2 = none ∧
        PassedFrom state checked.1) := by
  have looked : (state.blockhashCache.getSlot blockhash).1 =
      state.blockhashCache.slotOf blockhash := BlockhashCache.getSlot_fst _ _
  have slots := state.blockhashCache.slotOf_getSlot blockhash
  simp only [checkBlockhashFreshness, warm, ↓reduceIte, found, looked, StaleBlockhash]
  cases slot : state.blockhashCache.slotOf blockhash with
  | some seenSlot =>
      dsimp only
      by_cases old : cfg.health.maxBlockhashAgeSlots < state.pool.tipSlot - seenSlot
      · rw [if_pos old]
        exact Or.inl ⟨old, rfl, rfl, rfl, slots⟩
      · rw [if_neg old]
        exact Or.inr ⟨old, rfl, rfl, rfl⟩
  | none =>
      have vote := verifyBlockhash_eq_true cfg state.pool now answers
      cases verdict : verifyBlockhash cfg state.pool now answers with
      | none =>
          refine Or.inl ⟨?_, rfl, rfl, rfl, slots⟩
          simp [← vote, verdict]
      | some valid =>
          cases valid with
          | false =>
              refine Or.inl ⟨?_, rfl, rfl, rfl, slots⟩
              simp [← vote, verdict]
          | true =>
              refine Or.inr ⟨?_, rfl, rfl, rfl⟩
              simp [← vote, verdict]

theorem checkBlockhashFreshness_cold {external : External} {cfg : Config} {state : AppState}
    {now : Instant} {answers : Answers} {request id : Json}
    (cold : state.blockhashCache.isWarmedUp now = false) :
    checkBlockhashFreshness external cfg state now answers request id = (state, none) := by
  rw [checkBlockhashFreshness, cold]
  rfl

/-- A check rejects with the stale-blockhash error or passes. -/
theorem checkBlockhashFreshness_left (external : External) (cfg : Config) (state : AppState)
    (now : Instant) (answers : Answers) (request id : Json) :
    let checked := checkBlockhashFreshness external cfg state now answers request id
    (checked.2 = some (staleError id) ∧ RejectedFrom state checked.1) ∨
      (checked.2 = none ∧ PassedFrom state checked.1) := by
  dsimp only
  cases warm : state.blockhashCache.isWarmedUp now with
  | false =>
      rw [checkBlockhashFreshness_cold warm]
      exact Or.inr ⟨rfl, rfl, rfl⟩
  | true =>
      cases found : requestBlockhash external request with
      | none =>
          rw [checkBlockhashFreshness, warm, found]
          exact Or.inr ⟨rfl, rfl, rfl⟩
      | some blockhash =>
          rcases checkBlockhashFreshness_spec cfg answers id warm found with
            ⟨_, rejected⟩ | ⟨_, passed⟩
          · exact Or.inl rejected
          · exact Or.inr passed

end Disburse
