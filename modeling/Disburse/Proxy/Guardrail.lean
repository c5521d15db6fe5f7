import Disburse.Proxy.Forward

/-!
Owns the end-to-end decision of the blockhash guardrail: for every serialized
transaction that a sendTransaction carries, what both handlers do with it.
-/

namespace Disburse

open Disburse.Library

/-- The `encoding` option, from the parameters after the transaction. -/
def encodingOption (options : List Json) : Option Json :=
  options.head?.bind fun first => first.get "encoding"

/-- The ways a client writes a transaction into `params[0]`. -/
inductive WrittenAs (external : External) (tx : WireTransaction) : String → Option Json → Prop where
  | byDefault : WrittenAs external tx (external.bs58Encode tx.serialize) none
  | base58 : WrittenAs external tx (external.bs58Encode tx.serialize) (some (.string "base58"))
  | base64 : WrittenAs external tx (external.base64Encode tx.serialize) (some (.string "base64"))

/-- A sendTransaction request with the transaction as its first parameter. -/
structure Carries (external : External) (request : Json) (tx : WireTransaction) : Prop where
  method : request.get "method" = some (.string "sendTransaction")
  params : ∃ data options, request.get "params" = some (.array (.string data :: options)) ∧
    WrittenAs external tx data (encodingOption options)

/-- The proxy reads the transaction's own blockhash. -/
theorem requestBlockhash_of_carries {external : External} {request : Json} {tx : WireTransaction}
    (carries : Carries external request tx)
    (bs58RoundTrip : ∀ bytes, external.bs58Decode (external.bs58Encode bytes) = some bytes)
    (base64RoundTrip : ∀ bytes,
      external.base64Decode (external.base64Encode bytes) = some bytes) :
    requestBlockhash external request = some (external.bs58Encode tx.blockhash) := by
  rcases carries.params with ⟨data, options, params, written⟩
  have second : (Json.string data :: options)[1]? = options.head? := by
    cases options <;> rfl
  have decoded : decodeTx external data
      (((encodingOption options).bind Json.asStr).getD "base58") = some tx.serialize := by
    generalize encodingOption options = encoding at written
    cases written with
    | byDefault => exact bs58RoundTrip _
    | base58 => exact bs58RoundTrip _
    | base64 => exact base64RoundTrip _
  unfold requestBlockhash
  rw [params]
  simp only [Option.bind_eq_bind, Option.bind_some, Json.asArray, List.head?_cons, Json.asStr,
    second]
  show (decodeTx external data (((encodingOption options).bind Json.asStr).getD "base58")).bind
    (extractBlockhash external) = _
  rw [decoded, Option.bind_some, extractBlockhash_serialize]

/-- What a rejection gives to the client and leaves behind. -/
structure Rejection (request : Json) (before : AppState) (handled : Handled) : Prop where
  reply : ∃ error, handled.response = .json error ∧
    error.get "id" = some (requestId request) ∧
    error.pointer ["error", "code"] = some (.ofInt (-32002))
  /-- No routing decision, no attempt, no stats record. -/
  pool : handled.state.pool = before.pool
  counted : handled.state.metrics = { before.metrics with
    blockhashRejections := before.metrics.blockhashRejections + 1 }

/-- A call that is not rejected goes on to `forward_core`, nothing counted. -/
def GoesOn (external : External) (cfg : Config) (schedule : Schedule) (request : Json)
    (before : AppState) (handled : Handled) : Prop :=
  ∃ passed, PassedFrom before passed ∧
    handled.forwarded = some (forwardCore external cfg passed schedule request
      (requestId request) "sendTransaction")

theorem staleError_code (id : Json) :
    (staleError id).pointer ["error", "code"] = some (.ofInt (-32002)) := rfl

/-- A transaction is rejected exactly when the cache is warm and its blockhash
is too old there, or unknown there and not vouched for by the upstreams. -/
theorem guardrail_decision (external : External) (cfg : Config) (state : AppState)
    (handler : Handler) (schedule : Schedule) (request : Json) (tx : WireTransaction)
    (carries : Carries external request tx)
    (bs58RoundTrip : ∀ bytes, external.bs58Decode (external.bs58Encode bytes) = some bytes)
    (base64RoundTrip : ∀ bytes,
      external.base64Decode (external.base64Encode bytes) = some bytes) :
    let handled := handler.run external cfg state schedule request
    let rejected := handled.forwarded = none
    (rejected ↔ state.blockhashCache.isWarmedUp schedule.checkAt = true ∧
        StaleBlockhash cfg state schedule.checkAt schedule.answers
          (external.bs58Encode tx.blockhash)) ∧
      (rejected → Rejection request state handled) ∧
      (¬ rejected → GoesOn external cfg schedule request state handled) := by
  have found := requestBlockhash_of_carries carries bs58RoundTrip base64RoundTrip
  have entered := beforeForward_sendTransaction external cfg state schedule.checkAt schedule.answers
    carries.method
  dsimp only
  cases warm : state.blockhashCache.isWarmedUp schedule.checkAt with
  | false =>
      rw [checkBlockhashFreshness_cold warm] at entered
      rw [run_of_forward handler schedule entered]
      simp only [reduceCtorEq, Bool.false_eq_true, false_and, iff_self, not_false_eq_true,
        false_implies, true_implies, true_and]
      exact ⟨state, ⟨rfl, rfl⟩, rfl⟩
  | true =>
      have checked := checkBlockhashFreshness_spec cfg schedule.answers (requestId request) warm
        found
      dsimp only at checked
      generalize checkBlockhashFreshness external cfg state schedule.checkAt schedule.answers
        request (requestId request) = result at entered checked
      rcases result with ⟨after, verdict⟩
      rcases checked with ⟨stale, rejection, left⟩ | ⟨fresh, passed, left⟩
      · dsimp only at rejection left
        rw [rejection] at entered
        rw [run_of_reply handler schedule entered]
        refine ⟨⟨fun _ => ⟨rfl, stale⟩, fun _ => rfl⟩, fun _ => ⟨⟨_, rfl, rfl, ?_⟩, left.pool,
          left.metrics⟩, fun proceeds => absurd rfl proceeds⟩
        exact staleError_code _
      · dsimp only at passed left
        rw [passed] at entered
        rw [run_of_forward handler schedule entered]
        simp only [reduceCtorEq, fresh, and_false, iff_self, not_false_eq_true, false_implies,
          true_implies, true_and]
        exact ⟨after, left, rfl⟩

/-! ### A rejected call -/

theorem External.plain_base64 (bytes : Bytes) :
    External.plain.base64Decode (External.plain.base64Encode bytes) = some bytes := by
  have table : ∀ value : Fin 256, (Char.ofNat value.val).toNat = value.val := by
    decide +kernel
  have same : (fun c : Char => UInt8.ofNat c.toNat) ∘ (fun byte => Char.ofNat byte.toNat) = id := by
    funext byte
    show UInt8.ofNat (Char.ofNat byte.toNat).toNat = byte
    rw [table ⟨byte.toNat, byte.toNat_lt⟩, UInt8.ofNat_toNat]
  show some (((String.ofList _).toList).map _) = _
  rw [String.toList_ofList, List.map_map, same, List.map_id]

/-- A legacy transaction without signatures and accounts. -/
def WireTransaction.bare : WireTransaction where
  signatures := []
  version := none
  header := (0, 0, 0)
  accounts := []
  blockhash := List.replicate 32 7
  trailing := []
  signatureSize := by simp
  signatureCount := by simp
  accountSize := by simp
  accountCount := by simp
  blockhashSize := by simp
  versionBit := WireTransaction.versionBit_of_legacy
  legacyBit := by simp

def bareRequest : Json :=
  .object [
    ("id", .number (.posInt 7)),
    ("method", .string "sendTransaction"),
    ("params", .array [.string (External.plain.bs58Encode WireTransaction.bare.serialize)])]

theorem bareRequest_carries : Carries .plain bareRequest .bare :=
  ⟨rfl, _, [], rfl, .byDefault⟩

/-- A minute after start-up, with no upstream answering. -/
def silentSchedule : Schedule where
  checkAt := 60000000000
  answers := fun _ => none
  attempts := fun _ =>
    { before := id
      selectAt := 60000000000
      draws := fun _ => 0
      meanwhile := id
      exchange := .error { isTimeout := true, isConnect := false, text := "" }
      latencyMs := 10000
      doneAt := 70000000000 }
  deadline := none

theorem not_vouches_silent (cfg : Config) (pool : UpstreamPool) (now : Instant) :
    ¬ Vouches cfg pool now fun _ => none := by
  intro vouches
  rcases vouches with ⟨_, _, _, _, _, answered, _⟩
  cases answered

/-- A warm node that has never seen the hash and gets no vote rejects the call. -/
theorem guardrail_decision_silent :
    Rejection bareRequest (.start .deployment 0)
      (Handler.raw.run .plain .deployment (.start .deployment 0) silentSchedule bareRequest) := by
  have decision := guardrail_decision .plain .deployment (.start .deployment 0) .raw
    silentSchedule bareRequest .bare bareRequest_carries base58Decode_encode External.plain_base64
  exact decision.2.1 (decision.1.mpr ⟨by decide +kernel, not_vouches_silent _ _ _⟩)

end Disburse
