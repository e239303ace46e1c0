import PrivacyEngine.Mitm.Session
import PrivacyEngine.Policy.Accepted
import PrivacyEngine.Store.CertPin

/-!
# Handshakes of an intercepted tunnel

A tunnel has two TLS legs, negotiated one after the other: the upstream leg, where the engine is the
client, and the client leg, where it is the server.  What follows them is the filtering relay or a
plain copy in both directions.  The certificates of the client leg are cached per host and per list
of protocols; a cache only ever holds configurations issued for their own key.
-/

namespace PrivacyEngine

open Wire

def alpnH2 : Str := ascii "h2"

def alpnHttp11 : Str := ascii "http/1.1"

/-- Protocols the engine lists on a leg. -/
def alpnProtocols (forceHttp1 : Bool) : List Str :=
  if forceHttp1 then [alpnHttp11] else [alpnH2, alpnHttp11]

/-! ## Certificates of the client leg -/

structure ServerConfig where
  commonName : Str
  alpnProtocols : List Str
  deriving DecidableEq

/-- Key under which the configuration of a host is cached. -/
def cacheKey (normalizedHost : Str) (forceHttp1 : Bool) : Str :=
  normalizedHost ++ if forceHttp1 then ascii "|h1" else ascii "|h2h1"

/-- The configuration issued for a host. -/
def issuedConfig (normalizedHost : Str) (forceHttp1 : Bool) : ServerConfig :=
  ⟨normalizedHost, alpnProtocols forceHttp1⟩

/-- Cached configurations, the latest first.  Each was issued for the key it is stored under. -/
structure CertCache where
  entries : List (Str × ServerConfig)
  issued : ∀ entry ∈ entries, ∃ host forceHttp1,
    entry = (cacheKey host forceHttp1, issuedConfig host forceHttp1)

namespace CertCache

def empty : CertCache := ⟨[], by simp⟩

def get (cache : CertCache) (key : Str) : Option ServerConfig := cache.entries.lookup key

def insert (cache : CertCache) (host : Str) (forceHttp1 : Bool) : CertCache where
  entries := (cacheKey host forceHttp1, issuedConfig host forceHttp1) :: cache.entries
  issued := List.forall_mem_cons.mpr ⟨⟨host, forceHttp1, rfl⟩, cache.issued⟩

end CertCache

/-- The key tells which protocols a configuration was issued for. -/
theorem cacheKey_inj {host host' : Str} {forceHttp1 forceHttp1' : Bool}
    (same : cacheKey host forceHttp1 = cacheKey host' forceHttp1') :
    host = host' ∧ forceHttp1 = forceHttp1' := by
  have reversed := congrArg List.reverse same
  cases forceHttp1 <;> cases forceHttp1' <;> simp [cacheKey, ascii] at same reversed ⊢
  · exact same
  · exact same

/-- A cached configuration is the one issued for the key it is looked up under. -/
theorem CertCache.get_cacheKey (cache : CertCache) {host : Str} {forceHttp1 : Bool}
    {config : ServerConfig} (found : cache.get (cacheKey host forceHttp1) = some config) :
    config = issuedConfig host forceHttp1 := by
  obtain ⟨before, after, entries_eq, -⟩ := List.lookup_eq_some_iff.mp found
  obtain ⟨host', forceHttp1', issued⟩ := cache.issued (cacheKey host forceHttp1, config)
    (by rw [entries_eq]; simp)
  obtain ⟨key_eq, rfl⟩ := Prod.mk.inj issued
  obtain ⟨rfl, rfl⟩ := cacheKey_inj key_eq
  rfl

/-- The configuration for the client leg and the cache behind it, given the outcome of issuing a
certificate. -/
def serverConfigForHost (cache : CertCache) (targetHost : Str) (forceHttp1 : Bool)
    (issues : Except Str Unit) : Except MitmError ServerConfig × CertCache :=
  let normalizedHost := toAsciiLowercase (trim targetHost)
  if normalizedHost = [] then (.error (.certGeneration (ascii "empty target host")), cache)
  else
    match cache.get (cacheKey normalizedHost forceHttp1) with
    | some config => (.ok config, cache)
    | none =>
        match issues with
        | .error reason => (.error (.certGeneration reason), cache)
        | .ok _ => (.ok (issuedConfig normalizedHost forceHttp1),
            cache.insert normalizedHost forceHttp1)

theorem serverConfigForHost_ok {cache : CertCache} {targetHost : Str} {forceHttp1 : Bool}
    {issues : Except Str Unit} {config : ServerConfig}
    (configured : (serverConfigForHost cache targetHost forceHttp1 issues).1 = .ok config) :
    toAsciiLowercase (trim targetHost) ≠ [] ∧
      config.alpnProtocols = alpnProtocols forceHttp1 := by
  unfold serverConfigForHost at configured
  dsimp only at configured
  split at configured
  · cases configured
  · rename_i named
    refine ⟨named, ?_⟩
    split at configured
    · rename_i cached found
      cases configured
      rw [cache.get_cacheKey found]
      rfl
    · split at configured
      · cases configured
      · cases configured
        rfl

/-- A host with a name is configured when its certificate can be issued. -/
theorem exists_serverConfig (cache : CertCache) {targetHost : Str}
    (named : toAsciiLowercase (trim targetHost) ≠ []) (forceHttp1 : Bool) :
    ∃ config cache', serverConfigForHost cache targetHost forceHttp1 (.ok ()) =
      (.ok config, cache') := by
  unfold serverConfigForHost
  dsimp only
  rw [if_neg named]
  split
  · exact ⟨_, _, rfl⟩
  · exact ⟨_, _, rfl⟩

/-! ## The tunnel up to its relay -/

/-- What the surroundings of a tunnel decide: the connection, the handshakes with the protocol they
end with, the pin check of the upstream certificate when there is one, and the issuing of a
certificate. -/
structure TunnelOutcomes where
  connect : Except IoError Unit
  upstreamHandshake : Except Str (Option Str)
  pinCheck : Option (Str × Except Str PinCheckResult)
  issues : Except Str Unit
  clientHandshake : Except Str (Option Str)

inductive RelayKind where
  | firstResponseHeaderPolicy
  | copyBidirectional
  deriving DecidableEq

/-- A tunnel that relays: how, and the protocol each leg was negotiated with. -/
structure Relaying where
  kind : RelayKind
  clientAlpn : Option Str
  upstreamAlpn : Option Str
  deriving DecidableEq

/-- How far a tunnel got: its effects, the cache behind it, and its relay or its error. -/
structure TunnelStart where
  effects : List Effect
  cache : CertCache
  result : Except MitmError Relaying

namespace RelayEnv

variable (env : RelayEnv)

def manualRewriteActive : Bool :=
  env.rewritePlan.stripTrackingPixels || !env.rewritePlan.manualScriptPatterns.isEmpty ||
    !env.rewritePlan.manualRemoveSelectors.isEmpty

def forceHttp1 : Bool := env.sessionPlan.enableHttp1SetCookieFilter || env.manualRewriteActive

def pinEffects : Option (Str × Except Str PinCheckResult) → List Effect
  | some (fingerprint, .ok .firstSeen) => [.log (.certPinFirstSeen fingerprint)]
  | some (_, .ok (.mismatch expected got)) =>
      .log (.certPinMismatch expected got) :: .metric .certPinViolationTotal ::
        env.record .certPinViolation
  | some (_, .error error) => [.log (.certPinError error)]
  | some (_, .ok .pinned) | none => []

/-- Whether the protocol of a leg is HTTP/1.1 or unspecified. -/
def isHttp1 (alpn : Option Str) : Bool := alpn.isNone || alpn == some alpnHttp11

def relayKind (clientAlpn upstreamAlpn : Option Str) : RelayKind :=
  if env.forceHttp1 then .firstResponseHeaderPolicy
  else if isHttp1 clientAlpn && isHttp1 upstreamAlpn && env.rewritePlan.shouldRewrite then
    .firstResponseHeaderPolicy
  else .copyBidirectional

/-- The tunnel up to the point where it relays. -/
def interceptTlsTunnel (validServerName : Str → Bool) (cache : CertCache)
    (outcomes : TunnelOutcomes) : TunnelStart :=
  match outcomes.connect with
  | .error error => ⟨[], cache, .error (.upstreamConnect error)⟩
  | .ok _ =>
      if !validServerName env.targetHost then
        ⟨[], cache, .error (.invalidServerName env.targetHost)⟩
      else
        match outcomes.upstreamHandshake with
        | .error reason => ⟨[], cache, .error (.upstreamTlsHandshake reason)⟩
        | .ok upstreamAlpn =>
            let effects := env.pinEffects outcomes.pinCheck
            match serverConfigForHost cache env.targetHost env.forceHttp1 outcomes.issues with
            | (.error error, cache) => ⟨effects, cache, .error error⟩
            | (.ok _, cache) =>
                match outcomes.clientHandshake with
                | .error reason => ⟨effects, cache, .error (.clientTlsHandshake reason)⟩
                | .ok clientAlpn =>
                    ⟨effects, cache,
                      .ok ⟨env.relayKind clientAlpn upstreamAlpn, clientAlpn, upstreamAlpn⟩⟩

/-- A tunnel that relays has negotiated both legs. -/
theorem interceptTlsTunnel_ok {validServerName : Str → Bool} {cache : CertCache}
    {outcomes : TunnelOutcomes} {relaying : Relaying}
    (started : (env.interceptTlsTunnel validServerName cache outcomes).result = .ok relaying) :
    validServerName env.targetHost = true ∧
      outcomes.upstreamHandshake = .ok relaying.upstreamAlpn ∧
      (∃ config, (serverConfigForHost cache env.targetHost env.forceHttp1 outcomes.issues).1 =
        .ok config) ∧
      outcomes.clientHandshake = .ok relaying.clientAlpn ∧
      relaying.kind = env.relayKind relaying.clientAlpn relaying.upstreamAlpn := by
  unfold interceptTlsTunnel at started
  split at started
  · cases started
  · split at started
    · cases started
    · rename_i valid
      split at started
      · cases started
      · rename_i upstreamAlpn upstream
        dsimp only at started
        split at started
        · cases started
        · rename_i config cache' configured
          split at started
          · cases started
          · rename_i clientAlpn client
            cases started
            exact ⟨by simpa using valid, upstream, ⟨config, by rw [configured]⟩, client, rfl⟩

/-! ## The protocols of the two legs -/

/-- Protocols a leg can end with: none, or one that its client offers and its server accepts. -/
inductive Negotiated (offered accepted : List Str) : Option Str → Prop
  | unspecified : Negotiated offered accepted none
  | agreed {protocol : Str} : protocol ∈ offered → protocol ∈ accepted →
      Negotiated offered accepted (some protocol)

/-- Protocols the peers of a tunnel list. -/
structure Peers where
  browserOffers : List Str
  upstreamAccepts : List Str

/-- Outcomes in which each leg is negotiated between the lists of its two sides. -/
structure Possible (cache : CertCache) (peers : Peers) (outcomes : TunnelOutcomes) : Prop where
  upstream : ∀ alpn, outcomes.upstreamHandshake = .ok alpn →
    Negotiated (alpnProtocols env.forceHttp1) peers.upstreamAccepts alpn
  client : ∀ alpn config, outcomes.clientHandshake = .ok alpn →
    (serverConfigForHost cache env.targetHost env.forceHttp1 outcomes.issues).1 = .ok config →
    Negotiated peers.browserOffers config.alpnProtocols alpn

/-- The protocol spoken on a leg. -/
def spoken (alpn : Option Str) : Str := alpn.getD alpnHttp11

variable {env}

theorem Negotiated.spoken_eq {offered accepted : List Str} {alpn : Option Str}
    (negotiated : Negotiated offered accepted alpn) :
    spoken alpn = alpnHttp11 ∨ spoken alpn ∈ offered ∧ spoken alpn ∈ accepted := by
  cases negotiated with
  | unspecified => exact .inl rfl
  | agreed offers accepts => exact .inr ⟨offers, accepts⟩

/-- Between lists without h2 on one side and the engine's list on the other, HTTP/1.1 is spoken. -/
theorem spoken_http11 {protocol : Str} {list : List Str} {forced : Bool}
    (listed : protocol ∈ alpnProtocols forced) (also : protocol ∈ list)
    (no_h2 : forced = true ∨ alpnH2 ∉ list) : protocol = alpnHttp11 := by
  cases forced with
  | true => simpa [alpnProtocols] using listed
  | false =>
      have cases_on : protocol = alpnH2 ∨ protocol = alpnHttp11 := by
        simpa [alpnProtocols] using listed
      rcases cases_on with rfl | rfl
      · exact absurd also (no_h2.resolve_left Bool.false_ne_true)
      · rfl

/-- Any two protocols can be the outcome of the two legs. -/
theorem exists_outcomes {validServerName : Str → Bool} {cache : CertCache} {peers : Peers}
    (valid : validServerName env.targetHost = true)
    (named : toAsciiLowercase (trim env.targetHost) ≠ []) {clientAlpn upstreamAlpn : Option Str}
    (client : Negotiated peers.browserOffers (alpnProtocols env.forceHttp1) clientAlpn)
    (upstream : Negotiated (alpnProtocols env.forceHttp1) peers.upstreamAccepts upstreamAlpn) :
    ∃ outcomes relaying, env.Possible cache peers outcomes ∧
      (env.interceptTlsTunnel validServerName cache outcomes).result = .ok relaying ∧
      relaying.clientAlpn = clientAlpn ∧ relaying.upstreamAlpn = upstreamAlpn := by
  obtain ⟨config, cache', configured⟩ := exists_serverConfig cache named env.forceHttp1
  refine ⟨⟨.ok (), .ok upstreamAlpn, none, .ok (), .ok clientAlpn⟩,
    ⟨env.relayKind clientAlpn upstreamAlpn, clientAlpn, upstreamAlpn⟩, ⟨?_, ?_⟩, ?_, rfl, rfl⟩
  · rintro alpn ⟨⟩
    exact upstream
  · rintro alpn config' ⟨⟩ configured'
    rw [(serverConfigForHost_ok configured').2]
    exact client
  · simp only [interceptTlsTunnel, valid, configured, Bool.not_true, Bool.false_eq_true, if_false]

/-- Both legs of a tunnel speak the same protocol in every outcome exactly when HTTP/1.1 is forced
on both, or no peer lists h2, or the tunnel cannot start. -/
theorem legs_speak_same_protocol_iff (env : RelayEnv) (validServerName : Str → Bool)
    (cache : CertCache) (peers : Peers) :
    (∀ outcomes relaying, env.Possible cache peers outcomes →
        (env.interceptTlsTunnel validServerName cache outcomes).result = .ok relaying →
        spoken relaying.clientAlpn = spoken relaying.upstreamAlpn) ↔
      (validServerName env.targetHost = true → toAsciiLowercase (trim env.targetHost) ≠ [] →
        env.forceHttp1 = true ∨ alpnH2 ∉ peers.browserOffers ∧ alpnH2 ∉ peers.upstreamAccepts) := by
  constructor
  · intro same valid named
    by_contra mixed
    rw [not_or, Bool.not_eq_true, not_and_or, not_not, not_not] at mixed
    obtain ⟨unforced, lists_h2⟩ := mixed
    have listed : alpnH2 ∈ alpnProtocols env.forceHttp1 := by
      rw [unforced]
      exact List.mem_cons_self
    have differ : spoken (some alpnH2) ≠ spoken none := by decide
    rcases lists_h2 with browser | upstream
    · obtain ⟨outcomes, relaying, possible, started, client_eq, upstream_eq⟩ :=
        @exists_outcomes env validServerName cache peers valid named _ _ (.agreed browser listed)
          .unspecified
      have equal := same outcomes relaying possible started
      rw [client_eq, upstream_eq] at equal
      exact differ equal
    · obtain ⟨outcomes, relaying, possible, started, client_eq, upstream_eq⟩ :=
        @exists_outcomes env validServerName cache peers valid named _ _ .unspecified
          (.agreed listed upstream)
      have equal := same outcomes relaying possible started
      rw [client_eq, upstream_eq] at equal
      exact differ equal.symm
  · intro aligned outcomes relaying possible started
    obtain ⟨valid, upstream, ⟨config, configured⟩, client, -⟩ := env.interceptTlsTunnel_ok started
    obtain ⟨named, protocols⟩ := serverConfigForHost_ok configured
    have client_leg := possible.client _ config client configured
    have upstream_leg := possible.upstream _ upstream
    rw [protocols] at client_leg
    have no_h2 := aligned valid named
    have client_http11 : spoken relaying.clientAlpn = alpnHttp11 := by
      rcases client_leg.spoken_eq with http11 | ⟨offers, accepts⟩
      · exact http11
      · exact spoken_http11 accepts offers (no_h2.imp_right And.left)
    have upstream_http11 : spoken relaying.upstreamAlpn = alpnHttp11 := by
      rcases upstream_leg.spoken_eq with http11 | ⟨offers, accepts⟩
      · exact http11
      · exact spoken_http11 offers accepts (no_h2.imp_right And.right)
    rw [client_http11, upstream_http11]

/-- A browser that offers h2 reaches a server that only accepts HTTP/1.1. -/
def mixedOutcomes : TunnelOutcomes :=
  ⟨.ok (), .ok (some alpnHttp11), none, .ok (), .ok (some alpnH2)⟩

/-- Without a rule that forces HTTP/1.1, h2 frames are copied to a server that speaks HTTP/1.1. -/
theorem mixed_legs_are_copied :
    (sampleTunnel (.defaultForMode .enforce) plainHost).Possible .empty
        ⟨[alpnH2, alpnHttp11], [alpnHttp11]⟩ mixedOutcomes ∧
      ((sampleTunnel (.defaultForMode .enforce) plainHost).interceptTlsTunnel (fun _ => true) .empty
        mixedOutcomes).result = .ok ⟨.copyBidirectional, some alpnH2, some alpnHttp11⟩ ∧
      spoken (some alpnH2) ≠ spoken (some alpnHttp11) := by
  have unforced : (sampleTunnel (.defaultForMode .enforce) plainHost).forceHttp1 = false := by
    decide +kernel
  have copied : (sampleTunnel (.defaultForMode .enforce) plainHost).relayKind (some alpnH2)
      (some alpnHttp11) = .copyBidirectional := by
    decide +kernel
  obtain ⟨config, cache, configured⟩ :=
    @exists_serverConfig .empty plainHost (by decide) false
  refine ⟨⟨?_, ?_⟩, ?_, by decide⟩
  · rintro alpn ⟨⟩
    rw [unforced]
    exact .agreed (by decide) (by decide)
  · rintro alpn config ⟨⟩ configured
    rw [(serverConfigForHost_ok configured).2, unforced]
    exact .agreed (by decide) (by decide)
  · have host : (sampleTunnel (.defaultForMode .enforce) plainHost).targetHost = plainHost := rfl
    simp only [interceptTlsTunnel, mixedOutcomes, Bool.not_true, Bool.false_eq_true, if_false,
      unforced, host, configured, copied]

/-! ## The relay of a rule -/

/-- A rule on requests comes with a rule on bodies, so it forces HTTP/1.1. -/
theorem manualRewriteActive_of_valid {selectorParses : Str → Bool}
    (valid : env.policyEngine.cfg.validate selectorParses = .ok ())
    (enabled : env.policyEngine.cfg.bodyRewrite.enabled = true) :
    env.manualRewriteActive = true := by
  have acts := (PolicyConfig.bodyRewrite_of_valid valid enabled).1
  simp only [manualRewriteActive, rewritePlan, PolicyEngine.planForBodyRewrite, enabled, if_true,
    Bool.true_and, Bool.or_eq_true, Bool.not_eq_true', List.isEmpty_eq_false_iff]
  rcases acts with patterns | selectors | pixels
  · exact .inl (.inr patterns)
  · exact .inr selectors
  · exact .inl (.inl pixels)

theorem bodyRewrite_enabled_of_requestRule
    (rule : env.rewritePlan.refererSpoof = true ∨ env.rewritePlan.queryParamStrip = true) :
    env.policyEngine.cfg.bodyRewrite.enabled = true := by
  simp only [rewritePlan, PolicyEngine.planForBodyRewrite, Bool.and_eq_true] at rule
  rcases rule with ⟨⟨⟨-, enabled⟩, -⟩, -⟩ | ⟨⟨-, enabled⟩, -⟩
  · exact enabled
  · exact enabled

/-- With a validated configuration, a tunnel for which cookies, the Referer or query parameters are
to be filtered forces HTTP/1.1, and if it relays at all, it does so through the filtering relay. -/
theorem enabled_rules_force_relay (env : RelayEnv) {selectorParses : Str → Bool}
    (valid : env.policyEngine.cfg.validate selectorParses = .ok ())
    (enabled : env.sessionPlan.enableHttp1SetCookieFilter = true ∨
      env.rewritePlan.refererSpoof = true ∨ env.rewritePlan.queryParamStrip = true) :
    env.forceHttp1 = true ∧ ∀ validServerName cache outcomes relaying,
      (env.interceptTlsTunnel validServerName cache outcomes).result = .ok relaying →
        relaying.kind = .firstResponseHeaderPolicy := by
  have forced : env.forceHttp1 = true := by
    rw [forceHttp1, Bool.or_eq_true]
    refine enabled.imp_right fun rule => ?_
    exact manualRewriteActive_of_valid valid (bodyRewrite_enabled_of_requestRule rule)
  refine ⟨forced, fun validServerName cache outcomes relaying started => ?_⟩
  obtain ⟨-, -, -, -, kind⟩ := env.interceptTlsTunnel_ok started
  rw [kind, relayKind, if_pos forced]

/-- A policy that strips query parameters and rewrites script tags. -/
def queryRuleCfg : PolicyConfig :=
  { PolicyConfig.defaultForMode .reportOnly with
    bodyRewrite :=
      { enabled := true
        trackerScriptPatterns := [ascii "gtm.js"]
        queryParamStripEnabled := true } }

theorem query_rule_forces_relay :
    (sampleTunnel queryRuleCfg plainHost).sessionPlan.enableHttp1SetCookieFilter = false ∧
      (sampleTunnel queryRuleCfg plainHost).forceHttp1 = true ∧
      ∀ validServerName cache outcomes relaying,
        ((sampleTunnel queryRuleCfg plainHost).interceptTlsTunnel validServerName cache
          outcomes).result = .ok relaying → relaying.kind = .firstResponseHeaderPolicy := by
  have valid : (sampleTunnel queryRuleCfg plainHost).policyEngine.cfg.validate (fun _ => false) =
      .ok () := by decide +kernel
  refine ⟨by decide +kernel, enabled_rules_force_relay _ valid (.inr (.inr ?_))⟩
  decide +kernel

end RelayEnv

end PrivacyEngine
