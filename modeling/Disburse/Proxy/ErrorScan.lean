import Disburse.Library.KeyScan
import Disburse.Proxy.Attempt

/-!
Owns the byte scan for a JSON-RPC error on bodies that are JSON texts: what it
sees in a text, and when that is the error of the parsed response.
-/

namespace Disburse

open Disburse.Library

theorem windows_any_iff (pattern : Bytes) (nonempty : pattern ≠ []) (bytes : Bytes) :
    ((windows pattern.length bytes).any fun window => window == pattern) = true ↔
      pattern <:+: bytes := by
  induction bytes with
  | nil => simp [windows, nonempty]
  | cons byte rest inductionHypothesis =>
      rw [windows]
      by_cases fits : pattern.length ≤ (byte :: rest).length
      · rw [if_pos fits, List.any_cons, Bool.or_eq_true, inductionHypothesis,
          List.infix_cons_iff, beq_iff_eq, List.prefix_iff_eq_take, eq_comm]
      · rw [if_neg fits]
        have short : ¬ pattern <:+: byte :: rest := fun found => fits found.length_le
        simp [short]

/-- The scan sees the pattern wherever it stands. -/
theorem containsJsonrpcError_iff (bytes : Bytes) :
    containsJsonrpcError bytes = true ↔ errorPattern <:+: bytes :=
  windows_any_iff errorPattern (by decide) bytes

theorem errorPattern_eq : errorPattern = keyPattern "error".toList := by decide +kernel

/-- On a JSON text the scan sees the keys, at any depth, that end as `error` with
the colon at once behind them. -/
theorem containsJsonrpcError_document (document : JsonDocument) :
    containsJsonrpcError document.bytes = document.root.hasTightKey "error".toList := by
  rw [Bool.eq_iff_iff, containsJsonrpcError_iff, errorPattern_eq]
  exact document.infix_iff ⟨by decide +kernel, by decide +kernel⟩

/-- The parsed response has a top-level error that is not null. -/
def returnsError (response : Json) : Bool := (response.get "error").any fun error => !error.isNull

/-- The error of a response is that of its last member whose key reads `error`. -/
theorem returnsError_object (blanks : Blanks) (members : Members) :
    returnsError (JsonText.object blanks members).value =
      (members.lastUnder "error").any fun error => !error.isNull := by
  rw [returnsError, JsonText.value, Json.get_object, Members.lookup_enter, List.lookup_nil,
    Option.or_none]

/-- The scan of the text says what the parsed response says, and so does every
attempt to which the text is delivered with a success status. -/
structure ScanAgrees (document : JsonDocument) : Prop where
  scan : containsJsonrpcError document.bytes = returnsError document.value
  classified : ∀ (external : External) (cfg : Config) (state : AppState) (upstream : Upstream)
    (method : String) (id : Json) (response : HttpResponse) (latencyMs : Rat) (now : Instant)
    (status : Nat) (contentType : Option String),
    readBytesLimited response cfg.maxResponseBodyBytes = .ok (status, contentType, document.bytes) →
      isSuccessStatus status = true →
        let fired := fireOnce external cfg state upstream method id (.ok response) latencyMs now
        fired.2.success = !returnsError document.value ∧
          RecordedOnce upstream.name method latencyMs now (!returnsError document.value) state
            fired.1

/-- A body that arrives with a success status is classified by the scan alone. -/
theorem fireOnce_success (external : External) {cfg : Config} (state : AppState)
    (upstream : Upstream) (method : String) (id : Json) {response : HttpResponse} (latencyMs : Rat)
    (now : Instant) {status : Nat} {contentType : Option String} {bytes : Bytes}
    (read : readBytesLimited response cfg.maxResponseBodyBytes = .ok (status, contentType, bytes))
    (success : isSuccessStatus status = true) :
    (fireOnce external cfg state upstream method id (.ok response) latencyMs now).2.success =
      !containsJsonrpcError bytes := by
  rw [fireOnce_outcome, attemptOutcome, read]
  dsimp only
  rw [success, Bool.true_and]
  cases containsJsonrpcError bytes <;> rfl

/-- The scan agrees with the parser on a text exactly when the text has a tight
`error` key just if it has a top-level error that is not null. -/
theorem scanAgrees_iff (document : JsonDocument) :
    ScanAgrees document ↔
      document.root.hasTightKey "error".toList = returnsError document.value := by
  rw [← containsJsonrpcError_document]
  constructor
  · intro agrees
    exact agrees.scan
  · intro scan
    refine ⟨scan, ?_⟩
    intro external cfg state upstream method id response latencyMs now status contentType read
      success
    have classified := fireOnce_success external state upstream method id latencyMs now read success
    have recorded := fireOnce_recorded external cfg state upstream method id (.ok response)
      latencyMs now
    dsimp only at recorded ⊢
    rw [classified, scan] at recorded
    exact ⟨by rw [classified, scan], recorded⟩

/-! ### Texts that the scan misjudges -/

/-- The literal of the characters that stand for themselves. -/
def plainText (text : String) : StringText :=
  text.toList.filterMap fun c =>
    if allowed : c.toNat ≠ 34 ∧ c.toNat ≠ 92 ∧ 32 ≤ c.toNat then some (.plain c allowed) else none

theorem leading_seven : (7 : Fin 10) = 0 → ([] : List (Fin 10)) = [] := fun _ => rfl

/-- The number 7 as a text. -/
def sevenText : JsonText :=
  .number {
    negative := false
    whole := { first := ⟨7, by decide⟩, others := [] }
    leading := leading_seven
    fraction := none
    exponent := none }

/-- `{"error":7}` with some white space before the colon. -/
def errorReply (beforeColon : Blanks) : JsonDocument where
  before := []
  root := .object [] (.cons [] (plainText "error") beforeColon [] sevenText [] .nil)
  after := []

/-- `{"result":7,"error":null}` -/
def nullErrorReply : JsonDocument where
  before := []
  root := .object [] (.cons [] (plainText "result") [] [] sevenText []
    (.cons [] (plainText "error") [] [] .null [] .nil))
  after := []

/-- An error is missed for the space before its colon, and a null error is taken
for an error. -/
theorem scan_misjudges :
    ((errorReply [.space]).value.isObject = true ∧ ¬ ScanAgrees (errorReply [.space])) ∧
      nullErrorReply.value.isObject = true ∧ ¬ ScanAgrees nullErrorReply := by
  have missed : containsJsonrpcError (errorReply [.space]).bytes ≠
      returnsError (errorReply [.space]).value := by
    decide +kernel
  have falseAlarm : containsJsonrpcError nullErrorReply.bytes ≠
      returnsError nullErrorReply.value := by
    decide +kernel
  exact ⟨⟨rfl, fun agrees => missed agrees.scan⟩, rfl, fun agrees => falseAlarm agrees.scan⟩

end Disburse
