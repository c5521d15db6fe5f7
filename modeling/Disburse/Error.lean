import Disburse.External

/-!
Owns the JSON-RPC error codes, the error response builder and the redaction of
secret query parameters in upstream URLs.
-/

namespace Disburse

open Disburse.Library

inductive ErrorCode where
  | invalidRequest
  | upstreamUnreachable
  | blockhashStale
  | allUpstreamsExhausted
  | upstreamTimeout
  | upstreamBadResponse
  | responseTooLarge
  | deadlineExceeded
  | internal
deriving DecidableEq, Repr

def ErrorCode.asI32 : ErrorCode → Int
  | .invalidRequest => -32600
  | .upstreamUnreachable => -32001
  | .blockhashStale => -32002
  | .allUpstreamsExhausted => -32003
  | .upstreamTimeout => -32004
  | .upstreamBadResponse => -32005
  | .responseTooLarge => -32007
  | .deadlineExceeded => -32008
  | .internal => -32603

theorem ErrorCode.asI32_injective : Function.Injective ErrorCode.asI32 := by
  intro left right same
  cases left <;> cases right <;> first | rfl | exact absurd same (by decide)

/-- A JSON-RPC 2.0 error response; members in the map's key order. -/
def jsonrpcError (id : Json) (code : ErrorCode) (message : String) : Json :=
  .object [
    ("error", .object [("code", .ofInt code.asI32), ("message", .string message)]),
    ("id", id),
    ("jsonrpc", .string "2.0")]

section Response

variable (id : Json) (code : ErrorCode) (message : String)

@[simp] theorem jsonrpcError_isObject : (jsonrpcError id code message).isObject = true := rfl

@[simp] theorem jsonrpcError_id : (jsonrpcError id code message).get "id" = some id := rfl

@[simp] theorem jsonrpcError_result : (jsonrpcError id code message).get "result" = none := rfl

@[simp] theorem jsonrpcError_error : (jsonrpcError id code message).get "error" =
    some (.object [("code", .ofInt code.asI32), ("message", .string message)]) := rfl

/-- An error response determines its code. -/
theorem jsonrpcError_code {id : Json} {code other : ErrorCode} {message text : String}
    (same : jsonrpcError id code message = jsonrpcError id other text) : code = other := by
  have numbers : Json.ofInt code.asI32 = Json.ofInt other.asI32 := by
    simp only [jsonrpcError, Json.object.injEq, List.cons.injEq, Prod.mk.injEq] at same
    exact same.1.2.1.2
  exact ErrorCode.asI32_injective (Json.ofInt_injective numbers)

end Response

def secretKeys : List String :=
  ["api-key", "api_key", "apikey", "token", "access_token", "auth", "key"]

/-- The value shown for a query pair: `REDACTED` under a secret key. -/
def redactPair (pair : String × String) : String × String :=
  (pair.1, if secretKeys.any (pair.1.toLower == ·) then "REDACTED" else pair.2)

def redactUrl (external : External) (raw : String) : String :=
  match external.urlParse raw with
  | .error _ => raw
  | .ok parsed =>
      let pairs := (external.queryPairs parsed).map redactPair
      if pairs.isEmpty then external.urlToString parsed
      else external.urlToString
        (pairs.foldl (fun url pair => external.appendPair url pair.1 pair.2)
          (external.clearQuery parsed))

end Disburse
