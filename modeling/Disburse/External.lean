import Disburse.Library.Json

/-!
Owns the interface to the code the repository calls but does not contain: the
address parser of the standard library and the `url`, `bs58`, `base64` and
`serde_json` crates. Every model function that needs one of them takes an
`External`; what a result assumes about them is a hypothesis of that result.
-/

namespace Disburse

open Disburse.Library

abbrev Bytes := List UInt8

structure External where
  /-- `str::parse::<SocketAddr>`; callers only look at the error text. -/
  parseSocketAddr : String → Except String Unit
  Url : Type
  /-- `url::Url::parse`. -/
  urlParse : String → Except String Url
  queryPairs : Url → List (String × String)
  clearQuery : Url → Url
  appendPair : Url → String → String → Url
  urlToString : Url → String
  /-- `bs58::encode(..).into_string()`. -/
  bs58Encode : Bytes → String
  /-- `bs58::decode(..).into_vec().ok()`. -/
  bs58Decode : String → Option Bytes
  /-- `base64::engine::general_purpose::STANDARD`. -/
  base64Encode : Bytes → String
  base64Decode : String → Option Bytes
  /-- `serde_json::from_slice::<Value>(..).ok()`. -/
  fromSlice : Bytes → Option Json
  /-- `serde_json::to_vec(..).ok()`. -/
  toVec : Json → Option Bytes

end Disburse
