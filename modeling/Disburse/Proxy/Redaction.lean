import Disburse.Library.Replace
import Disburse.Proxy.Attempt

/-!
Owns what the error of an attempt that never reached the upstream shows of the
URL it was sent to: two upstreams whose URLs differ in secret query values, the
message each gets for one failure, and when the two messages are the same.

The HTTP client writes the URL into its error text as `url::Url` serializes it,
while `sanitize` looks for the text of the configuration.
-/

namespace Disburse

open Disburse.Library

/-! ### One failure, two upstreams -/

/-- A query parameter whose value is redacted. -/
def SecretName (name : String) : Prop := name.toLower ∈ secretKeys

/-- Two URLs that differ in the values of secret query parameters. -/
structure SecretValuesApart (external : External) (left right : external.Url) : Prop where
  query : List.Forall₂ (fun pair other => pair.1 = other.1 ∧ (SecretName pair.1 ∨ pair.2 = other.2))
    (external.queryPairs left) (external.queryPairs right)
  rest : external.clearQuery left = external.clearQuery right

/-- Two configured upstreams that differ in the values of secret query
parameters; `validate` asks of a URL that it parses. -/
structure SecretsApart (external : External) (left right : Upstream) : Prop where
  name : left.name = right.name
  urls : ∃ leftUrl rightUrl, external.urlParse left.url = .ok leftUrl ∧
    external.urlParse right.url = .ok rightUrl ∧ SecretValuesApart external leftUrl rightUrl ∧
    -- without a query there is no value to differ in
    (external.queryPairs leftUrl = [] → left.url = right.url)

/-- A failure of the HTTP client: its class and its text around the URL. -/
structure TransportFailure where
  isTimeout : Bool
  isConnect : Bool
  before : String
  after : String
deriving DecidableEq, Repr

/-- `url::Url::parse(url).to_string()` -/
def serializedUrl (external : External) (raw : String) : String :=
  match external.urlParse raw with
  | .error _ => raw
  | .ok parsed => external.urlToString parsed

/-- The error that a request to an upstream fails with. -/
def TransportFailure.error (external : External) (failure : TransportFailure)
    (upstream : Upstream) : ReqwestError where
  isTimeout := failure.isTimeout
  isConnect := failure.isConnect
  text := failure.before ++ serializedUrl external upstream.url ++ failure.after

/-- How the error text of the client reads: only the URL has a colon, that of its
scheme, and a configured spelling with a query that is not the serialized one does
not occur in the text. -/
structure EmbedsUrl (external : External) (failure : TransportFailure) (upstream : Upstream) :
    Prop where
  before : ':' ∉ failure.before.toList
  after : ':' ∉ failure.after.toList
  scheme : ':' ∈ (serializedUrl external upstream.url).toList
  spelling : ∀ url, external.urlParse upstream.url = .ok url → external.queryPairs url ≠ [] →
    external.urlToString url ≠ upstream.url →
    (failure.error external upstream).text.contains upstream.url = false

/-- The URL is configured as it is serialized, or serialized as it is redacted. -/
def Hidden (external : External) (upstream : Upstream) : Prop :=
  serializedUrl external upstream.url = upstream.url ∨
    serializedUrl external upstream.url = redactUrl external upstream.url

/-! ### What is shown of a URL -/

/-- `sanitize` replaces a URL that is configured as it is serialized. -/
def shownUrl (external : External) (raw : String) : String :=
  if serializedUrl external raw = raw then redactUrl external raw
  else serializedUrl external raw

section Shown

variable {external : External} {failure : TransportFailure} {upstream : Upstream}

theorem sanitize_written (embeds : EmbedsUrl external failure upstream)
    (written : serializedUrl external upstream.url = upstream.url) :
    sanitize external (failure.error external upstream).text upstream.url =
      failure.before ++ redactUrl external upstream.url ++ failure.after := by
  have scheme := embeds.scheme
  rw [written] at scheme
  have nonempty : upstream.url ≠ "" := by
    intro empty
    simp [empty] at scheme
  have whole : (failure.error external upstream).text.toList =
      failure.before.toList ++ upstream.url.toList ++ failure.after.toList := by
    simp [TransportFailure.error, written]
  have found : (failure.error external upstream).text.contains upstream.url = true := by
    rw [String.contains_string_iff, whole]
    exact ⟨_, _, rfl⟩
  rw [sanitize, if_pos found]
  apply String.toList_injective
  rw [(replaces_replace nonempty _ _).of_marked scheme embeds.before embeds.after whole]
  simp

theorem sanitize_rewritten {url : external.Url} (embeds : EmbedsUrl external failure upstream)
    (parsed : external.urlParse upstream.url = .ok url) (query : external.queryPairs url ≠ [])
    (rewritten : serializedUrl external upstream.url ≠ upstream.url) :
    sanitize external (failure.error external upstream).text upstream.url =
      failure.before ++ serializedUrl external upstream.url ++ failure.after := by
  have absent := embeds.spelling url parsed query (by simpa [serializedUrl, parsed] using rewritten)
  rw [sanitize, if_neg (Bool.eq_false_iff.mp absent)]
  rfl

theorem sanitize_eq {url : external.Url} (embeds : EmbedsUrl external failure upstream)
    (parsed : external.urlParse upstream.url = .ok url) (query : external.queryPairs url ≠ []) :
    sanitize external (failure.error external upstream).text upstream.url =
      failure.before ++ shownUrl external upstream.url ++ failure.after := by
  unfold shownUrl
  split
  · exact sanitize_written embeds ‹_›
  · exact sanitize_rewritten embeds parsed query ‹_›

end Shown

/-! ### Redacted URLs -/

theorem any_secretKeys_iff (name : String) :
    secretKeys.any (name.toLower == ·) = true ↔ SecretName name := by
  rw [List.any_beq, List.contains_iff_mem, SecretName]

theorem redactPair_eq {pair other : String × String} (name : pair.1 = other.1)
    (value : SecretName pair.1 ∨ pair.2 = other.2) : redactPair pair = redactPair other := by
  unfold redactPair
  rw [← name]
  rcases value with secret | same
  · have found := (any_secretKeys_iff pair.1).mpr secret
    rw [if_pos found, if_pos found]
  · rw [same]

theorem SecretValuesApart.redacted {external : External} {left right : external.Url}
    (apart : SecretValuesApart external left right) :
    (external.queryPairs left).map redactPair = (external.queryPairs right).map redactPair := by
  have pairs := apart.query
  generalize external.queryPairs left = first at pairs
  generalize external.queryPairs right = second at pairs
  induction pairs with
  | nil => rfl
  | cons head tail inductionHypothesis =>
      rw [List.map_cons, List.map_cons, inductionHypothesis, redactPair_eq head.1 head.2]

theorem SecretValuesApart.query_ne_nil {external : External} {left right : external.Url}
    (apart : SecretValuesApart external left right) (query : external.queryPairs left ≠ []) :
    external.queryPairs right ≠ [] := by
  intro empty
  have lengths := apart.query.length_eq
  rw [empty] at lengths
  exact query (List.length_eq_zero_iff.mp lengths)

theorem redactUrl_eq {external : External} {left right : String} {leftUrl rightUrl : external.Url}
    (leftParsed : external.urlParse left = .ok leftUrl)
    (rightParsed : external.urlParse right = .ok rightUrl)
    (apart : SecretValuesApart external leftUrl rightUrl)
    (query : external.queryPairs leftUrl ≠ []) :
    redactUrl external left = redactUrl external right := by
  have filled : (external.queryPairs rightUrl).map redactPair ≠ [] := by
    simpa using apart.query_ne_nil query
  simp only [redactUrl, leftParsed, rightParsed, apart.redacted, apart.rest,
    List.isEmpty_iff, if_neg filled]

/-- A URL without a query has nothing to redact. -/
theorem Hidden.of_bare {external : External} {upstream : Upstream} {url : external.Url}
    (parsed : external.urlParse upstream.url = .ok url) (bare : external.queryPairs url = []) :
    Hidden external upstream := by
  refine .inr ?_
  simp [serializedUrl, redactUrl, parsed, bare]

/-- What is shown of two URLs with the same redaction is the same when it hides
the values of both, or when neither URL is found in the text and both are
serialized alike. -/
theorem shownUrl_eq_iff {external : External} {left right : Upstream}
    (redacted : redactUrl external left.url = redactUrl external right.url) :
    shownUrl external left.url = shownUrl external right.url ↔
      (Hidden external left ∧ Hidden external right) ∨
        (serializedUrl external left.url ≠ left.url ∧
          serializedUrl external right.url ≠ right.url ∧
          serializedUrl external left.url = serializedUrl external right.url) := by
  unfold shownUrl Hidden
  by_cases leftWritten : serializedUrl external left.url = left.url <;>
    by_cases rightWritten : serializedUrl external right.url = right.url
  · simp [leftWritten, rightWritten, redacted]
  · simp [leftWritten, rightWritten, redacted, eq_comm]
  · simp [leftWritten, rightWritten, redacted]
  · simp only [leftWritten, rightWritten, if_false, false_or, ne_eq, not_false_eq_true, true_and]
    constructor
    · exact .inr
    · rintro (⟨leftHidden, rightHidden⟩ | same)
      · rw [leftHidden, rightHidden, redacted]
      · exact same

/-! ### Two messages -/

section Messages

variable {external : External} {failure : TransportFailure} {left right : Upstream}

theorem SecretsApart.redacted (apart : SecretsApart external left right) :
    redactUrl external left.url = redactUrl external right.url := by
  obtain ⟨leftUrl, rightUrl, leftParsed, rightParsed, values, alone⟩ := apart.urls
  by_cases bare : external.queryPairs leftUrl = []
  · rw [alone bare]
  · exact redactUrl_eq leftParsed rightParsed values bare

/-- Timeouts and failed connections do not show the error text. -/
theorem classify_eq_of_connection (apart : SecretsApart external left right)
    (connection : failure.isTimeout = true ∨ failure.isConnect = true) :
    classifyReqwestError external (failure.error external left) left =
      classifyReqwestError external (failure.error external right) right := by
  unfold classifyReqwestError
  simp only [TransportFailure.error, apart.name, apart.redacted]
  rcases connection with timeout | connect
  · simp only [timeout, if_true]
  · simp only [connect, if_true]

theorem classify_internal {upstream : Upstream} (timeout : failure.isTimeout = false)
    (connect : failure.isConnect = false) :
    classifyReqwestError external (failure.error external upstream) upstream =
      (.internal, s!"upstream {upstream.name} failed: {
        sanitize external (failure.error external upstream).text upstream.url}") := by
  have noTimeout : (failure.error external upstream).isTimeout = false := timeout
  have noConnect : (failure.error external upstream).isConnect = false := connect
  simp only [classifyReqwestError, noTimeout, noConnect, Bool.false_eq_true, if_false]

theorem classify_eq_iff_sanitize (apart : SecretsApart external left right)
    (timeout : failure.isTimeout = false) (connect : failure.isConnect = false) :
    classifyReqwestError external (failure.error external left) left =
        classifyReqwestError external (failure.error external right) right ↔
      sanitize external (failure.error external left).text left.url =
        sanitize external (failure.error external right).text right.url := by
  rw [classify_internal timeout connect, classify_internal timeout connect, apart.name]
  simp only [Prod.mk.injEq, true_and, String.append_right_inj]
  exact Iff.rfl

/-- Two upstreams that differ in secret values get one message exactly for a
timeout, a failed connection, or when both URLs are hidden (or neither is configured
as it is serialized and the serialized URLs do not differ). -/
theorem classify_eq_iff_hidden (apart : SecretsApart external left right)
    (leftText : EmbedsUrl external failure left) (rightText : EmbedsUrl external failure right) :
    classifyReqwestError external (failure.error external left) left =
        classifyReqwestError external (failure.error external right) right ↔
      failure.isTimeout = true ∨ failure.isConnect = true ∨
        (Hidden external left ∧ Hidden external right) ∨
        (serializedUrl external left.url ≠ left.url ∧
          serializedUrl external right.url ≠ right.url ∧
          serializedUrl external left.url = serializedUrl external right.url) := by
  by_cases timeout : failure.isTimeout = true
  · simp [classify_eq_of_connection apart (.inl timeout), timeout]
  by_cases connect : failure.isConnect = true
  · simp [classify_eq_of_connection apart (.inr connect), connect]
  rw [Bool.not_eq_true] at timeout connect
  rw [classify_eq_iff_sanitize apart timeout connect, timeout, connect]
  simp only [Bool.false_eq_true, false_or]
  obtain ⟨leftUrl, rightUrl, leftParsed, rightParsed, values, alone⟩ := apart.urls
  by_cases bare : external.queryPairs leftUrl = []
  · have same : left = right := by
      cases left
      cases right
      rw [Upstream.mk.injEq]
      exact ⟨apart.name, alone bare⟩
    subst same
    simp [Hidden.of_bare leftParsed bare]
  · rw [sanitize_eq leftText leftParsed bare,
      sanitize_eq rightText rightParsed (values.query_ne_nil bare), String.append_left_inj,
      String.append_right_inj, shownUrl_eq_iff apart.redacted]

end Messages

/-! ### A path that is not written -/

/-- A URL parser for `https://rpc.host` with at most a token: the path is always
serialized. -/
def External.rpcHost : External :=
  { External.plain with
    Url := List (String × String)
    urlParse := fun raw =>
      match raw with
      | "https://rpc.host?token=a" | "https://rpc.host/?token=a" => .ok [("token", "a")]
      | "https://rpc.host?token=b" | "https://rpc.host/?token=b" => .ok [("token", "b")]
      | _ => .error "invalid international domain name"
    queryPairs := id
    clearQuery := fun _ => []
    appendPair := fun pairs name value => pairs ++ [(name, value)]
    urlToString := fun pairs =>
      if pairs.isEmpty then "https://rpc.host/"
      else "https://rpc.host/?" ++
        "&".intercalate (pairs.map fun pair => pair.1 ++ "=" ++ pair.2) }

/-- A request that broke off. -/
def brokenRequest : TransportFailure where
  isTimeout := false
  isConnect := false
  before := "error sending request for url ("
  after := ")"

theorem tokensApart : SecretValuesApart .rpcHost [("token", "a")] [("token", "b")] where
  query := .cons ⟨rfl, .inl (by unfold SecretName; decide +kernel)⟩ .nil
  rest := rfl

theorem classify_eq_iff_hidden_slash :
    let left : Upstream := ⟨"rpc", "https://rpc.host/?token=a"⟩
    let right : Upstream := ⟨"rpc", "https://rpc.host/?token=b"⟩
    classifyReqwestError .rpcHost (brokenRequest.error .rpcHost left) left =
      classifyReqwestError .rpcHost (brokenRequest.error .rpcHost right) right := by
  intro left right
  have apart : SecretsApart .rpcHost left right :=
    ⟨rfl, _, _, rfl, rfl, tokensApart, fun bare => absurd bare (by decide +kernel)⟩
  have leftWritten : serializedUrl .rpcHost left.url = left.url := by decide +kernel
  have rightWritten : serializedUrl .rpcHost right.url = right.url := by decide +kernel
  refine (classify_eq_iff_hidden apart ⟨by decide +kernel, by decide +kernel, ?_, ?_⟩
    ⟨by decide +kernel, by decide +kernel, ?_, ?_⟩).mpr
    (.inr (.inr (.inl ⟨.inl leftWritten, .inl rightWritten⟩)))
  · rw [leftWritten]
    decide +kernel
  · rintro url ⟨⟩ query rewritten
    exact absurd leftWritten rewritten
  · rw [rightWritten]
    decide +kernel
  · rintro url ⟨⟩ query rewritten
    exact absurd rightWritten rewritten

/-- Two accepted URLs without a path, as many providers print them: a request that
broke off shows the token. -/
theorem missing_slash_shows_token :
    let left : Upstream := ⟨"rpc", "https://rpc.host?token=a"⟩
    let right : Upstream := ⟨"rpc", "https://rpc.host?token=b"⟩
    (∀ upstream ∈ [left, right],
      Config.validate .rpcHost { Config.deployment with upstreams := [⟨"rpc", upstream.url⟩] } =
        .ok () ∧ EmbedsUrl .rpcHost brokenRequest upstream) ∧
    SecretsApart .rpcHost left right ∧
    (classifyReqwestError .rpcHost (brokenRequest.error .rpcHost left) left).2 =
      "upstream rpc failed: error sending request for url (https://rpc.host/?token=a)" ∧
    classifyReqwestError .rpcHost (brokenRequest.error .rpcHost left) left ≠
      classifyReqwestError .rpcHost (brokenRequest.error .rpcHost right) right := by
  intro left right
  have apart : SecretsApart .rpcHost left right :=
    ⟨rfl, _, _, rfl, rfl, tokensApart, fun bare => absurd bare (by decide +kernel)⟩
  have absent : ∀ upstream ∈ [left, right],
      (brokenRequest.error .rpcHost upstream).text.contains upstream.url = false := by
    intro upstream member
    rw [Bool.eq_false_iff, ne_eq, String.contains_string_iff]
    revert upstream
    decide +kernel
  have scheme : ∀ upstream ∈ [left, right],
      ':' ∈ (serializedUrl .rpcHost upstream.url).toList := by
    decide +kernel
  have accepted : ∀ upstream ∈ [left, right],
      Config.validate .rpcHost { Config.deployment with upstreams := [⟨"rpc", upstream.url⟩] } =
        .ok () := by
    decide +kernel
  have kept : ∀ upstream ∈ [left, right],
      sanitize .rpcHost (brokenRequest.error .rpcHost upstream).text upstream.url =
        (brokenRequest.error .rpcHost upstream).text := by
    intro upstream member
    rw [sanitize, if_neg (Bool.eq_false_iff.mp (absent upstream member))]
  refine ⟨fun upstream member => ⟨accepted upstream member, by decide +kernel, by decide +kernel,
    scheme upstream member, fun _ _ _ _ => absent upstream member⟩, apart, ?_, ?_⟩
  · rw [classify_internal rfl rfl, kept left (by simp)]
    decide +kernel
  · rw [ne_eq, classify_eq_iff_sanitize apart rfl rfl, kept left (by simp),
      kept right (by simp)]
    decide +kernel

end Disburse
