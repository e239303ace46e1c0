import PrivacyEngine.Wire.Base64
import PrivacyEngine.Dns.Transparency

/-!
# Requests of the DoH front end

A query comes in the body of a request or, spelled in base 64, in a parameter of its URL.  Either
way it is treated alike, whatever else stands in the URL, and a request without a query is refused
before anything is counted, decided or sent.
-/

namespace PrivacyEngine

open Wire

namespace DohServerConfig

variable {config : DohServerConfig} {request : DohRequest} {query : Bytes}

/-- A request with a query in its body. -/
def post (query : Bytes) : DohRequest := ⟨.post, some dnsMessageType, none, .ok query⟩

/-- What is asked: the body of a POST with the media type of DNS messages, or the bytes that the
first `dns` parameter of a GET spells. -/
inductive Asks : DohRequest → Bytes → Prop
  | body {uriQuery : Option Str} {query : Bytes} :
      Asks ⟨.post, some dnsMessageType, uriQuery, .ok query⟩ query
  | param {contentType : Option Bytes} {uriQuery : Option Str} {body : Except Str Bytes}
      {query : Bytes} (spelled : dnsParam (uriQuery.getD []) = some (Base64.encode query)) :
      Asks ⟨.get, contentType, uriQuery, body⟩ query

/-- Answers to requests that ask nothing: a body that cannot be read, or the text of a client
error. -/
inductive Refusal : Except Str DohResponse → Prop
  | unread (error : Str) : Refusal (.error error)
  | mediaType :
      Refusal (.ok (dohTextResponse .unsupportedMediaType (ascii "Unsupported Media Type")))
  | missing :
      Refusal (.ok (dohTextResponse .badRequest (ascii "Missing 'dns' query parameter")))
  | invalid : Refusal (.ok (dohTextResponse .badRequest (ascii "Invalid base64url DNS query")))
  | method : Refusal (.ok (dohTextResponse .methodNotAllowed (ascii "Method Not Allowed")))

variable (config) in
/-- The decoder reads the spelling of some bytes and nothing else. -/
def DecodesBase64 : Prop :=
  ∀ text bytes, config.decode text = some bytes ↔ text = Base64.encode bytes

/-- A request asks exactly what its query bytes are, and is refused without any. -/
theorem queryBytes_eq_ok_iff (decodes : config.DecodesBase64) :
    config.queryBytes request = .ok query ↔ Asks request query := by
  obtain ⟨method, contentType, uriQuery, body⟩ := request
  constructor
  · intro carried
    cases method with
    | post =>
        by_cases media : contentType = some dnsMessageType
        · subst media
          cases body with
          | error error => simp [queryBytes, Except.mapError] at carried
          | ok bytes =>
              obtain rfl : bytes = query := by simpa [queryBytes, Except.mapError] using carried
              exact .body
        · simp [queryBytes, media] at carried
    | get =>
        simp only [queryBytes] at carried
        split at carried
        · cases carried
        · rename_i b64 found
          split at carried
          · rename_i bytes decoded
            cases carried
            apply Asks.param
            rw [found, (decodes b64 query).mp decoded]
          · cases carried
    | other => cases carried
  · intro asks
    cases asks with
    | body => simp [queryBytes, Except.mapError]
    | param spelled =>
        have decoded := (decodes _ query).mpr rfl
        simp only [queryBytes, spelled, decoded]

theorem queryBytes_refuses {response : Except Str DohResponse}
    (refused : config.queryBytes request = .error response) : Refusal response := by
  obtain ⟨method, contentType, uriQuery, body⟩ := request
  cases method with
  | post =>
      simp only [queryBytes] at refused
      split at refused
      · cases refused
        exact .mediaType
      · cases body with
        | error error =>
            cases refused
            exact .unread error
        | ok bytes => cases refused
  | get =>
      simp only [queryBytes] at refused
      split at refused
      · cases refused
        exact .missing
      · split at refused
        · cases refused
        · cases refused
          exact .invalid
  | other =>
      cases refused
      exact .method

/-- Every request either asks one query, and is handled like a request with that query in its body,
or asks none, and is refused without a trace: nothing is counted, logged, decided or sent. -/
theorem request_asks_or_is_refused (decodes : config.DecodesBase64) (request : DohRequest) :
    (∃ query, Asks request query ∧ (∀ other, Asks request other → other = query) ∧
      ∀ clientIp upstream, config.handleDohRequest request clientIp upstream =
        config.handleDohRequest (post query) clientIp upstream) ∨
    ((∀ query, ¬ Asks request query) ∧ ∃ response, Refusal response ∧
      ∀ clientIp upstream, config.handleDohRequest request clientIp upstream = ([], response)) := by
  cases carried : config.queryBytes request with
  | ok query =>
      refine .inl ⟨query, (queryBytes_eq_ok_iff decodes).mp carried, fun other asks => ?_,
        fun clientIp upstream => ?_⟩
      · have same := (queryBytes_eq_ok_iff decodes).mpr asks
        exact Except.ok.inj (same.symm.trans carried)
      · have posted : config.queryBytes (post query) = .ok query :=
          (queryBytes_eq_ok_iff decodes).mpr .body
        simp only [handleDohRequest, carried, posted]
  | error response =>
      refine .inr ⟨fun query asks => ?_, response, queryBytes_refuses carried,
        fun clientIp upstream => ?_⟩
      · have asked := (queryBytes_eq_ok_iff decodes).mpr asks
        cases asked.symm.trans carried
      · simp only [handleDohRequest, carried]

/-! ## URLs -/

/-- A parameter of a URL that is not named `dns`. -/
structure OtherParam (pair : Str) : Prop where
  free : 38 ∉ pair
  other : ∀ value, splitOnce 61 pair ≠ some (ascii "dns", value)

/-- The query of a URL with a `dns` parameter among others. -/
def urlQuery (before : List Str) (query : Bytes) (after : List Str) : Str :=
  [38].intercalate (before ++ (ascii "dns=" ++ Base64.encode query) :: after)

theorem dnsParam_urlQuery {before after : List Str} (others : ∀ pair ∈ before, OtherParam pair)
    (free : ∀ pair ∈ after, 38 ∉ pair) (query : Bytes) :
    dnsParam (urlQuery before query after) = some (Base64.encode query) := by
  have solid : ∀ b ∈ Base64.encode query, b ≠ 38 ∧ b ≠ 61 := by
    intro b mem
    obtain ⟨n, small, rfl⟩ := Base64.symbols_encode query b mem
    exact Base64.symbol_ne small
  have dns_free : (38 : UInt8) ∉ ascii "dns=" ++ Base64.encode query := by
    rw [List.mem_append, not_or]
    exact ⟨by decide, fun mem => (solid 38 mem).1 rfl⟩
  have pairs : (urlQuery before query after).splitOn 38 =
      before ++ (ascii "dns=" ++ Base64.encode query) :: after := by
    have each : ∀ pair ∈ before ++ (ascii "dns=" ++ Base64.encode query) :: after, 38 ∉ pair :=
      List.forall_mem_append.mpr ⟨fun pair mem => (others pair mem).free,
        List.forall_mem_cons.mpr ⟨dns_free, free⟩⟩
    exact List.splitOn_intercalate 38 each (by simp)
  have named : splitOnce 61 (ascii "dns=" ++ Base64.encode query) =
      some (ascii "dns", Base64.encode query) :=
    splitOnce_eq_some_iff.mpr ⟨rfl, by decide⟩
  rw [dnsParam, pairs, List.findSome?_append, List.findSome?_eq_none_iff (l := before) |>.mpr,
    List.findSome?_cons, named]
  · rfl
  · intro pair mem
    cases cut : splitOnce 61 pair with
    | none => rfl
    | some entry =>
        apply if_neg
        intro same
        apply (others pair mem).other entry.2
        rw [cut, ← same]

/-- A query gets the same treatment in a URL as in a body: the same effects and the same response,
whatever other parameters stand around it. -/
theorem get_is_handled_like_post (decodes : config.DecodesBase64) {before after : List Str}
    (others : ∀ pair ∈ before, OtherParam pair) (free : ∀ pair ∈ after, 38 ∉ pair)
    (contentType : Option Bytes) (query : Bytes) (body : Except Str Bytes) (clientIp : Str)
    (upstream : DohUpstream) :
    config.handleDohRequest ⟨.get, contentType, some (urlQuery before query after), body⟩ clientIp
        upstream =
      config.handleDohRequest (post query) clientIp upstream := by
  have asks : Asks ⟨.get, contentType, some (urlQuery before query after), body⟩ query :=
    .param (dnsParam_urlQuery others free query)
  rcases request_asks_or_is_refused decodes
    ⟨.get, contentType, some (urlQuery before query after), body⟩ with
    ⟨asked, -, only, same⟩ | ⟨silent, -⟩
  · obtain rfl := only query asks
    exact same clientIp upstream
  · exact absurd asks (silent query)

/-! ### A query in a URL -/

/-- A server that reports doubleclick.net and reads base 64. -/
def sampleServer : DohServerConfig :=
  { Twice.sampleDoh .reportOnly with decode := Base64.decode }

theorem sampleServer_decodes : sampleServer.DecodesBase64 := fun _ _ => Base64.decode_eq_some_iff

theorem sampleServer_get :
    sampleServer.handleDohRequest
        ⟨.get, none, some (ascii "ct=x&dns=" ++ Base64.encode DnsFilterConfig.sampleQuery), .ok []⟩
        (ascii "10.0.0.2") sampleUpstream =
      sampleServer.handleDohRequest (post DnsFilterConfig.sampleQuery) (ascii "10.0.0.2")
        sampleUpstream := by
  have others : ∀ pair ∈ [ascii "ct=x"], OtherParam pair := by
    intro pair mem
    obtain rfl := List.mem_singleton.mp mem
    refine ⟨by decide, fun value => ?_⟩
    have cut : splitOnce 61 (ascii "ct=x") = some (ascii "ct", ascii "x") := by decide
    rw [cut]
    exact fun same => by cases same
  have free : ∀ pair ∈ ([] : List Str), 38 ∉ pair := List.forall_mem_nil _
  exact get_is_handled_like_post sampleServer_decodes others free none
    DnsFilterConfig.sampleQuery (.ok []) (ascii "10.0.0.2") sampleUpstream

end DohServerConfig

end PrivacyEngine
