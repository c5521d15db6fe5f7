import Disburse.Library.FormUrlencoded
import Disburse.Proxy.Redaction

/-!
Owns what `redact_url` makes of a URL that parses: the pairs of its query with the
secret values hidden, and everything else as it was.

The query is rebuilt pair by pair. What the `url` crate does with a query is
assumed; the form encoding it uses, and a parser over it, are given as an instance.
-/

namespace Disburse

open Disburse.Library

/-! ### The `url` crate -/

/-- The components of a URL other than its query. -/
structure UrlComponents where
  scheme : String
  hasAuthority : Bool
  username : String
  password : Option String
  host : Option String
  port : Option Nat
  path : String
  fragment : Option String
deriving DecidableEq, Repr

/-- What the crate documents of its URLs: a serialized URL is parsed to the URL, a
pair is appended behind the pairs of any query, and nothing but the query changes.
Without its query a URL is its components. -/
structure UrlCrate (external : External) (components : external.Url → UrlComponents) : Prop where
  parse_toString : ∀ url, external.urlParse (external.urlToString url) = .ok url
  pairs_append : ∀ url name value, external.queryPairs (external.appendPair url name value) =
    external.queryPairs url ++ [(name, value)]
  pairs_clear : ∀ url, external.queryPairs (external.clearQuery url) = []
  components_append : ∀ url name value,
    components (external.appendPair url name value) = components url
  components_clear : ∀ url, components (external.clearQuery url) = components url
  clear_eq : ∀ left right, components left = components right →
    external.clearQuery left = external.clearQuery right

/-! ### What is hidden -/

/-- A key is the name of a secret, ignoring ASCII case. -/
def IsSecretKey (key : String) : Prop := ∃ secret ∈ secretKeys, key.toLower = secret.toLower

/-- What a redacted URL shows of a pair. -/
structure ShownAs (pair shown : String × String) : Prop where
  key : shown.1 = pair.1
  secret : IsSecretKey pair.1 → shown.2 = "REDACTED"
  plain : ¬ IsSecretKey pair.1 → shown.2 = pair.2

/-- Two URLs that differ in the values of secret keys and in nothing else. -/
structure DifferInSecrets (external : External) (components : external.Url → UrlComponents)
    (left right : external.Url) : Prop where
  components : components left = components right
  query : List.Forall₂ (fun pair other =>
      pair.1 = other.1 ∧ (IsSecretKey pair.1 ∨ pair.2 = other.2))
    (external.queryPairs left) (external.queryPairs right)
  -- without a pair there is no value to differ in
  bare : external.queryPairs left = [] → left = right

theorem isSecretKey_iff (key : String) : IsSecretKey key ↔ SecretName key := by
  have lower : ∀ secret ∈ secretKeys, secret.toLower = secret := by
    decide +kernel
  constructor
  · rintro ⟨secret, member, same⟩
    rw [SecretName, same, lower secret member]
    exact member
  · intro member
    exact ⟨key.toLower, member, (lower key.toLower member).symm⟩

theorem shownAs_redactPair (pair : String × String) : ShownAs pair (redactPair pair) where
  key := rfl
  secret := by
    intro secret
    rw [isSecretKey_iff, ← any_secretKeys_iff] at secret
    rw [redactPair, if_pos secret]
  plain := by
    intro plain
    rw [isSecretKey_iff, ← any_secretKeys_iff] at plain
    rw [redactPair, if_neg plain]

/-! ### The query is rebuilt -/

section Crate

variable {external : External} {components : external.Url → UrlComponents}

/-- The pairs are appended in order, behind those already there. -/
theorem queryPairs_foldl (crate : UrlCrate external components) (pairs : List (String × String))
    (url : external.Url) :
    external.queryPairs
        (pairs.foldl (fun url pair => external.appendPair url pair.1 pair.2) url) =
      external.queryPairs url ++ pairs := by
  induction pairs generalizing url with
  | nil => exact (List.append_nil _).symm
  | cons pair rest inductionHypothesis =>
      rw [List.foldl_cons, inductionHypothesis, crate.pairs_append, List.append_assoc,
        List.singleton_append]

theorem components_foldl (crate : UrlCrate external components) (pairs : List (String × String))
    (url : external.Url) :
    components (pairs.foldl (fun url pair => external.appendPair url pair.1 pair.2) url) =
      components url := by
  induction pairs generalizing url with
  | nil => rfl
  | cons pair rest inductionHypothesis =>
      rw [List.foldl_cons, inductionHypothesis, crate.components_append]

/-- The URL that `redact_url` serializes. -/
def redactedUrl (external : External) (url : external.Url) : external.Url :=
  if external.queryPairs url = [] then url
  else ((external.queryPairs url).map redactPair).foldl
    (fun url pair => external.appendPair url pair.1 pair.2) (external.clearQuery url)

theorem redactUrl_of_parsed {raw : String} {url : external.Url}
    (parsed : external.urlParse raw = .ok url) :
    redactUrl external raw = external.urlToString (redactedUrl external url) := by
  by_cases bare : external.queryPairs url = []
  · simp [redactUrl, redactedUrl, parsed, bare]
  · simp [redactUrl, redactedUrl, parsed, bare]

theorem queryPairs_redactedUrl (crate : UrlCrate external components) (url : external.Url) :
    external.queryPairs (redactedUrl external url) = (external.queryPairs url).map redactPair := by
  unfold redactedUrl
  split
  · rename_i bare
    rw [bare, List.map_nil]
  · rw [queryPairs_foldl crate, crate.pairs_clear, List.nil_append]

theorem components_redactedUrl (crate : UrlCrate external components) (url : external.Url) :
    components (redactedUrl external url) = components url := by
  unfold redactedUrl
  split
  · rfl
  · rw [components_foldl crate, crate.components_clear]

theorem parsed_redactUrl (crate : UrlCrate external components) {raw : String}
    {url : external.Url} (parsed : external.urlParse raw = .ok url) :
    external.urlParse (redactUrl external raw) = .ok (redactedUrl external url) := by
  rw [redactUrl_of_parsed parsed, crate.parse_toString]

/-- A redacted URL differs from the URL in secrets only. -/
theorem differInSecrets_redactedUrl (crate : UrlCrate external components) (url : external.Url) :
    DifferInSecrets external components (redactedUrl external url) url where
  components := components_redactedUrl crate url
  query := by
    rw [queryPairs_redactedUrl crate, List.forall₂_map_left_iff, List.forall₂_same]
    intro pair _
    by_cases secret : IsSecretKey pair.1
    · exact ⟨rfl, .inl secret⟩
    · exact ⟨rfl, .inr ((shownAs_redactPair pair).plain secret)⟩
  bare := by
    intro none
    rw [queryPairs_redactedUrl crate, List.map_eq_nil_iff] at none
    rw [redactedUrl, if_pos none]

/-- Two URLs that differ in secrets only have one redaction. -/
theorem DifferInSecrets.redactUrl_eq (crate : UrlCrate external components) {left right : String}
    {leftUrl rightUrl : external.Url} (leftParsed : external.urlParse left = .ok leftUrl)
    (rightParsed : external.urlParse right = .ok rightUrl)
    (differ : DifferInSecrets external components leftUrl rightUrl) :
    redactUrl external left = redactUrl external right := by
  by_cases bare : external.queryPairs leftUrl = []
  · rw [redactUrl_of_parsed leftParsed, redactUrl_of_parsed rightParsed, differ.bare bare]
  · have apart : SecretValuesApart external leftUrl rightUrl := by
      refine ⟨differ.query.imp ?_, crate.clear_eq leftUrl rightUrl differ.components⟩
      rintro pair other ⟨key, value⟩
      exact ⟨key, value.imp_left (isSecretKey_iff pair.1).mp⟩
    exact Disburse.redactUrl_eq leftParsed rightParsed apart bare

theorem redactUrl_redactUrl (crate : UrlCrate external components) (raw : String) :
    redactUrl external (redactUrl external raw) = redactUrl external raw := by
  cases parsed : external.urlParse raw with
  | error message =>
      have kept : redactUrl external raw = raw := by
        simp [redactUrl, parsed]
      rw [kept, kept]
  | ok url =>
      exact (differInSecrets_redactedUrl crate url).redactUrl_eq crate
        (parsed_redactUrl crate parsed) parsed

end Crate

/-! ### A parser of plain URLs -/

open Disburse.Library.FormUrlencoded

/-- A URL that is serialized as it is written, without its scheme `https`: a host in
lower case, and no character that would be escaped. -/
structure PlainUrl where
  host : List Char
  path : List Char
  query : Option (List Char)
  fragment : Option (List Char)
deriving DecidableEq

namespace PlainUrl

def text (url : PlainUrl) : List Char :=
  join '#' (join '?' (join '/' url.host (some url.path)) url.query) url.fragment

def ofText (text : List Char) : PlainUrl :=
  let (front, fragment) := cut '#' text
  let (front, query) := cut '?' front
  let (host, path) := cut '/' front
  ⟨host, path.getD [], query, fragment⟩

def isHostChar (c : Char) : Bool := c.isLower || c.isDigit || c = '.' || c = '-'

structure Valid (url : PlainUrl) : Prop where
  filled : url.host ≠ []
  host : ∀ c ∈ url.host, isHostChar c = true
  path : ∀ c ∈ url.path, isFormChar c = true ∨ c = '/'
  query : ∀ c ∈ url.query.getD [], isFormChar c = true
  fragment : ∀ c ∈ url.fragment.getD [], isFormChar c = true

theorem valid_iff {url : PlainUrl} : url.Valid ↔ url.host ≠ [] ∧
    url.host.all isHostChar = true ∧ url.path.all (fun c => isFormChar c || c = '/') = true ∧
    (url.query.getD []).all isFormChar = true ∧
    (url.fragment.getD []).all isFormChar = true := by
  simp only [List.all_eq_true, Bool.or_eq_true, decide_eq_true_eq]
  constructor
  · intro valid
    exact ⟨valid.filled, valid.host, valid.path, valid.query, valid.fragment⟩
  · rintro ⟨filled, host, path, query, fragment⟩
    exact ⟨filled, host, path, query, fragment⟩

instance (url : PlainUrl) : Decidable url.Valid := decidable_of_iff' _ valid_iff

theorem Valid.withQuery {url : PlainUrl} (valid : url.Valid) {query : List Char}
    (form : ∀ c ∈ query, isFormChar c = true) : Valid { url with query := some query } :=
  ⟨valid.filled, valid.host, valid.path, form, valid.fragment⟩

/-- A valid URL is read from its text. -/
theorem ofText_text {url : PlainUrl} (valid : url.Valid) : ofText url.text = url := by
  have slash : '/' ∉ url.host := fun member => absurd (valid.host _ member) (by decide)
  have question : '?' ∉ join '/' url.host (some url.path) := by
    intro member
    rcases mem_join member with inHost | here | inPath
    · exact absurd (valid.host _ inHost) (by decide)
    · exact absurd here (by decide)
    · exact absurd (valid.path _ inPath) (by decide)
  have number : '#' ∉ join '?' (join '/' url.host (some url.path)) url.query := by
    intro member
    rcases mem_join member with inFront | here | inQuery
    · rcases mem_join inFront with inHost | here | inPath
      · exact absurd (valid.host _ inHost) (by decide)
      · exact absurd here (by decide)
      · exact absurd (valid.path _ inPath) (by decide)
    · exact absurd here (by decide)
    · exact absurd (valid.query _ inQuery) (by decide)
  simp only [ofText, text, cut_join number, cut_join question, cut_join slash, Option.getD_some]

def components (url : PlainUrl) : UrlComponents where
  scheme := "https"
  hasAuthority := true
  username := ""
  password := none
  host := some (.ofList url.host)
  port := none
  path := .ofList ('/' :: url.path)
  fragment := url.fragment.map .ofList

end PlainUrl

/-- The `url` crate on plain URLs. -/
def External.plainUrls : External :=
  { External.plain with
    Url := { url : PlainUrl // url.Valid }
    urlParse := fun raw =>
      if "https://".toList.isPrefixOf raw.toList then
        let url := PlainUrl.ofText (raw.toList.drop 8)
        if valid : url.Valid then .ok ⟨url, valid⟩ else .error "invalid international domain name"
      else .error "relative URL without a base"
    queryPairs := fun url => pairs (fun _ => "\uFFFD") (url.val.query.getD [])
    clearQuery := fun url => ⟨_, url.property.withQuery (List.forall_mem_nil _)⟩
    appendPair := fun url name value =>
      ⟨_, url.property.withQuery (isFormChar_appendPair url.property.query name value)⟩
    urlToString := fun url => "https://" ++ .ofList url.val.text }

theorem urlCrate_plainUrls : UrlCrate .plainUrls fun url => url.val.components where
  parse_toString := by
    rintro ⟨url, valid⟩
    have letters : ("https://" ++ String.ofList url.text).toList =
        "https://".toList ++ url.text := by
      simp
    have scheme : "https://".toList.isPrefixOf ("https://".toList ++ url.text) = true :=
      List.isPrefixOf_iff_prefix.mpr (List.prefix_append _ _)
    have behind : ("https://".toList ++ url.text).drop 8 = url.text :=
      List.drop_left' (by decide)
    simp only [External.plainUrls, letters, if_pos scheme, behind, PlainUrl.ofText_text valid,
      dif_pos valid]
  pairs_append := fun url name value => pairs_appendPair _ _ name value
  pairs_clear := fun url => rfl
  components_append := fun url name value => rfl
  components_clear := fun url => rfl
  clear_eq := by
    rintro ⟨left, leftValid⟩ ⟨right, rightValid⟩ same
    simp only [PlainUrl.components, UrlComponents.mk.injEq, Option.some.injEq,
      String.ofList_inj, List.cons.injEq, true_and] at same
    obtain ⟨host, path, fragment⟩ := same
    have fragments : left.fragment = right.fragment :=
      Option.map_injective (fun _ _ => String.ofList_injective) fragment
    apply Subtype.ext
    change PlainUrl.mk left.host left.path (some []) left.fragment =
      PlainUrl.mk right.host right.path (some []) right.fragment
    rw [host, path, fragments]

def PlainUrl.rpcHost (query : String) : PlainUrl :=
  ⟨"rpc.host".toList, "v1".toList, some query.toList, some "top".toList⟩

/-- A URL with a secret whose key is escaped. -/
def escapedKey : External.plainUrls.Url :=
  ⟨.rpcHost "Api%2DKey=a&id=1&id=1", by decide +kernel⟩

/-- A URL with another secret whose key is not. -/
def plainKey : External.plainUrls.Url :=
  ⟨.rpcHost "Api-Key=b&id=1&id=1", by decide +kernel⟩

theorem queryPairs_escapedKey : External.plainUrls.queryPairs escapedKey =
    [("Api-Key", "a"), ("id", "1"), ("id", "1")] := by
  decide +kernel

theorem queryPairs_plainKey : External.plainUrls.queryPairs plainKey =
    [("Api-Key", "b"), ("id", "1"), ("id", "1")] := by
  decide +kernel

theorem keys_differInSecrets :
    DifferInSecrets .plainUrls (fun url => url.val.components) escapedKey plainKey where
  components := rfl
  query := by
    have secret : IsSecretKey "Api-Key" := by
      rw [isSecretKey_iff, SecretName]
      decide +kernel
    rw [queryPairs_escapedKey, queryPairs_plainKey]
    exact .cons ⟨rfl, .inl secret⟩ (.cons ⟨rfl, .inr rfl⟩ (.cons ⟨rfl, .inr rfl⟩ .nil))
  bare := by
    rw [queryPairs_escapedKey]
    intro bare
    cases bare

/-! ### The redaction of a URL -/

/-- The redaction of a URL hides the values of its secret keys, and only these: its
pairs are the pairs of the URL with every secret value replaced, nothing else
changes, two URLs that differ in secrets only are redacted alike, and a redacted URL
is its own redaction. -/
theorem redactUrl_hides {external : External} {components : external.Url → UrlComponents}
    (crate : UrlCrate external components) :
    (∀ raw url, external.urlParse raw = .ok url →
      ∃ redacted, external.urlParse (redactUrl external raw) = .ok redacted ∧
        components redacted = components url ∧
        List.Forall₂ ShownAs (external.queryPairs url) (external.queryPairs redacted)) ∧
    (∀ left right leftUrl rightUrl, external.urlParse left = .ok leftUrl →
      external.urlParse right = .ok rightUrl →
      DifferInSecrets external components leftUrl rightUrl →
      redactUrl external left = redactUrl external right) ∧
    ∀ raw, redactUrl external (redactUrl external raw) = redactUrl external raw := by
  refine ⟨?_, ?_, redactUrl_redactUrl crate⟩
  · intro raw url parsed
    refine ⟨redactedUrl external url, parsed_redactUrl crate parsed,
      components_redactedUrl crate url, ?_⟩
    rw [queryPairs_redactedUrl crate, List.forall₂_map_right_iff, List.forall₂_same]
    intro pair _
    exact shownAs_redactPair pair
  · intro left right leftUrl rightUrl leftParsed rightParsed differ
    exact differ.redactUrl_eq crate leftParsed rightParsed

theorem redactUrl_hides_escaped :
    let left := "https://rpc.host/v1?Api%2DKey=a&id=1&id=1#top"
    let right := "https://rpc.host/v1?Api-Key=b&id=1&id=1#top"
    (∃ redacted, External.plainUrls.urlParse (redactUrl .plainUrls left) = .ok redacted ∧
      redacted.val.components = escapedKey.val.components ∧
      List.Forall₂ ShownAs [("Api-Key", "a"), ("id", "1"), ("id", "1")]
        (External.plainUrls.queryPairs redacted)) ∧
    redactUrl .plainUrls left = redactUrl .plainUrls right ∧
    redactUrl .plainUrls (redactUrl .plainUrls left) = redactUrl .plainUrls left := by
  intro left right
  have leftWritten : External.plainUrls.urlToString escapedKey = left := by
    decide +kernel
  have rightWritten : External.plainUrls.urlToString plainKey = right := by
    decide +kernel
  have leftParsed := urlCrate_plainUrls.parse_toString escapedKey
  have rightParsed := urlCrate_plainUrls.parse_toString plainKey
  rw [leftWritten] at leftParsed
  rw [rightWritten] at rightParsed
  obtain ⟨hidden, alike, stable⟩ := redactUrl_hides urlCrate_plainUrls
  refine ⟨?_, alike left right _ _ leftParsed rightParsed keys_differInSecrets, stable left⟩
  rw [← queryPairs_escapedKey]
  exact hidden left escapedKey leftParsed

example : redactUrl .plainUrls "https://rpc.host/v1?Api%2DKey=a&id=1&&id=1&token#top" =
    "https://rpc.host/v1?Api-Key=REDACTED&id=1&id=1&token=REDACTED#top" := by
  decide +kernel

end Disburse
