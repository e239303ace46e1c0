import PrivacyEngine.Io
import PrivacyEngine.Wire.Json
import PrivacyEngine.Policy.Config

/-!
# Reading a policy file

`PolicyConfig::from_json_value` and `PolicyConfig::validate`, with the texts of their errors.
Required fields, unknown keys and lists of domains are handled the same way for every rule; the
optional lists of the body-rewrite rule keep their strings and drop everything else.  Whether a CSS
selector parses is decided by a library and enters as a parameter.
-/

namespace PrivacyEngine

open Wire

namespace PolicyMode

def parseConfigValue (s : Str) : Option PolicyMode :=
  let normalized := toAsciiLowercase (trim s)
  if normalized = ascii "disabled" then some .disabled
  else if normalized ∈ [ascii "report_only", ascii "report-only", ascii "reportonly"] then
    some .reportOnly
  else if normalized ∈ [ascii "enforce", ascii "enforced"] then some .enforce
  else none

end PolicyMode

namespace ConsentLevel

def parse (s : Str) : Option ConsentLevel :=
  let normalized := toAsciiLowercase (trim s)
  if normalized = ascii "essential_only" then some .essentialOnly
  else if normalized = ascii "analytics_ok" then some .analyticsOk
  else if normalized = ascii "all" then some .all
  else none

def asStr : ConsentLevel → Str
  | essentialOnly => ascii "essential_only"
  | analyticsOk => ascii "analytics_ok"
  | all => ascii "all"

end ConsentLevel

/-- Members of a JSON object. -/
abbrev Members := List (Str × Json)

/-- A value that has to be there. -/
def orInvalid {α : Type} (value : Option α) (message : Str) : Except IoError α :=
  match value with
  | some value => .ok value
  | none => .error (invalidData message)

def quoted (text : Str) : Str := ascii "'" ++ text ++ ascii "'"

/-- Refuse the first key that is not allowed. -/
def rejectUnknown (allowed : List Str) (members : Members) (message : Str → Str) :
    Except IoError Unit :=
  match members.find? fun member => !allowed.contains member.1 with
  | some member => .error (invalidData (message member.1))
  | none => .ok ()

/-- A set with one more element. -/
def insertDistinct (set : List Str) (element : Str) : List Str :=
  if set.contains element then set else set ++ [element]

/-- A map with the value of one key replaced. -/
def insertKey {α : Type} (map : List (Str × α)) (key : Str) (value : α) : List (Str × α) :=
  map.filter (·.1 ≠ key) ++ [(key, value)]

/-- Normalized, non-empty domains of a list of strings. -/
def parseDomains (onlyStrings : Str) (refuse : Str → Str → Option Str) :
    List Json → List Str → Except IoError (List Str)
  | [], domains => .ok domains
  | entry :: entries, domains => do
      let raw ← orInvalid entry.asStr onlyStrings
      let normalized := normalizeHost raw
      if normalized = [] then parseDomains onlyStrings refuse entries domains
      else
        match refuse raw normalized with
        | some message => .error (invalidData message)
        | none => parseDomains onlyStrings refuse entries (insertDistinct domains normalized)

/-- Domains of the blocking rules hold neither a slash nor a blank. -/
def refuseSlashOrBlank (message : Str) (raw normalized : Str) : Option Str :=
  if normalized.contains 47 || normalized.contains 32 then some (message ++ quoted raw) else none

/-- The strings of an optional array; everything else in it is dropped. -/
def stringsOf (members : Members) (key : Str) : List Str :=
  (((members.lookup key).bind Json.asArray).map fun items => items.filterMap Json.asStr).getD []

/-- An optional flag that is off when absent or ill-typed. -/
def flagOf (members : Members) (key : Str) : Bool :=
  ((members.lookup key).bind Json.asBool).getD false

def parseTrackerSetCookie (rules : Members) : Except IoError TrackerSetCookieRule := do
  let value ← orInvalid (rules.lookup (ascii "tracker_set_cookie"))
    (ascii "policy rules missing required key: tracker_set_cookie")
  let members ← orInvalid value.asObject (ascii "tracker_set_cookie must be a JSON object")
  rejectUnknown [ascii "enabled", ascii "domains"] members fun key =>
    ascii "unknown tracker_set_cookie key: " ++ quoted key
  let enabled ← orInvalid ((members.lookup (ascii "enabled")).bind Json.asBool)
    (ascii "tracker_set_cookie missing required boolean field: enabled")
  let domainsValue ← orInvalid (members.lookup (ascii "domains"))
    (ascii "tracker_set_cookie missing required array field: domains")
  let entries ← orInvalid domainsValue.asArray
    (ascii "tracker_set_cookie.domains must be a JSON array of strings")
  let domains ← parseDomains (ascii "tracker_set_cookie.domains must contain only strings")
    (refuseSlashOrBlank (ascii "invalid tracker domain value: ")) entries []
  return { enabled, domains }

def parseDnsBlock (rules : Members) : Except IoError DnsBlockRule :=
  match rules.lookup (ascii "dns_block") with
  | none => .ok {}
  | some value => do
      let members ← orInvalid value.asObject (ascii "dns_block must be a JSON object")
      rejectUnknown [ascii "enabled", ascii "domains"] members fun key =>
        ascii "unknown dns_block key: " ++ quoted key
      let enabled ← orInvalid ((members.lookup (ascii "enabled")).bind Json.asBool)
        (ascii "dns_block missing required boolean field: enabled")
      let entries ← orInvalid ((members.lookup (ascii "domains")).bind Json.asArray)
        (ascii "dns_block missing required array field: domains")
      let domains ← parseDomains (ascii "dns_block.domains must contain only strings")
        (refuseSlashOrBlank (ascii "invalid dns_block domain value: ")) entries []
      return { enabled, domains }

def parseBodyRewrite (rules : Members) : Except IoError BodyRewriteRule :=
  match rules.lookup (ascii "body_rewrite") with
  | none => .ok {}
  | some value => do
      let members ← orInvalid value.asObject (ascii "body_rewrite must be a JSON object")
      rejectUnknown
        [ascii "enabled", ascii "tracker_script_patterns", ascii "remove_selectors",
          ascii "css_inject_selectors", ascii "strip_tracking_pixels", ascii "max_body_bytes",
          ascii "referer_spoof_domains", ascii "query_param_strip_enabled"] members fun key =>
        ascii "unknown body_rewrite key: " ++ quoted key
      let enabled ← orInvalid ((members.lookup (ascii "enabled")).bind Json.asBool)
        (ascii "body_rewrite missing required boolean field: enabled")
      let refererSpoofDomains ←
        parseDomains (ascii "body_rewrite.referer_spoof_domains must contain only strings")
          (fun _ _ => none)
          (((members.lookup (ascii "referer_spoof_domains")).bind Json.asArray).getD []) []
      return {
        enabled
        trackerScriptPatterns := stringsOf members (ascii "tracker_script_patterns")
        removeSelectors := stringsOf members (ascii "remove_selectors")
        cssInjectSelectors := stringsOf members (ascii "css_inject_selectors")
        stripTrackingPixels := flagOf members (ascii "strip_tracking_pixels")
        maxBodyBytes :=
          (((members.lookup (ascii "max_body_bytes")).bind Json.asU64).map UInt64.toNat).getD
            (2 * 1024 * 1024)
        refererSpoofDomains
        queryParamStripEnabled := flagOf members (ascii "query_param_strip_enabled") }

def parseSiteOverrides : Members → List (Str × ConsentLevel) →
    Except IoError (List (Str × ConsentLevel))
  | [], overrides => .ok overrides
  | (site, value) :: sites, overrides => do
      let text ← orInvalid value.asStr
        (ascii "consent_enforcement.site_overrides['" ++ site ++ ascii "'] must be a string")
      let level ← orInvalid (ConsentLevel.parse text)
        (ascii "invalid consent level " ++ quoted text ++ ascii " for site override " ++
          quoted site)
      parseSiteOverrides sites (insertKey overrides (normalizeHost site) level)

def parseUserProfile (ip : Str) (value : Json) : Except IoError UserProfile := do
  let profile := ascii "user_profiles['" ++ ip ++ ascii "']"
  let members ← orInvalid value.asObject
    (ascii "consent_enforcement." ++ profile ++ ascii " must be a JSON object")
  rejectUnknown [ascii "name", ascii "consent"] members fun key =>
    ascii "unknown key " ++ quoted key ++ ascii " in " ++ profile
  let name ← orInvalid ((members.lookup (ascii "name")).bind Json.asStr)
    (profile ++ ascii " missing required string field: name")
  let text ← orInvalid ((members.lookup (ascii "consent")).bind Json.asStr)
    (profile ++ ascii " missing required string field: consent")
  let consent ← orInvalid (ConsentLevel.parse text)
    (ascii "invalid consent level " ++ quoted text ++ ascii " for " ++ profile)
  return { name, consent }

def parseUserProfiles : Members → List (Str × UserProfile) →
    Except IoError (List (Str × UserProfile))
  | [], profiles => .ok profiles
  | (ip, value) :: rest, profiles => do
      let profile ← parseUserProfile ip value
      parseUserProfiles rest (insertKey profiles ip profile)

/-- Members of an optional object, none when it is absent. -/
def optionalObject (members : Members) (key message : Str) : Except IoError Members :=
  match members.lookup key with
  | none => .ok []
  | some value => orInvalid value.asObject message

def parseConsentEnforcement (rules : Members) : Except IoError ConsentEnforcementRule :=
  match rules.lookup (ascii "consent_enforcement") with
  | none => .ok {}
  | some value => do
      let members ← orInvalid value.asObject (ascii "consent_enforcement must be a JSON object")
      rejectUnknown
        [ascii "enabled", ascii "default_consent", ascii "analytics_domains",
          ascii "site_overrides", ascii "user_profiles"] members fun key =>
        ascii "unknown consent_enforcement key: " ++ quoted key
      let enabled ← orInvalid ((members.lookup (ascii "enabled")).bind Json.asBool)
        (ascii "consent_enforcement missing required boolean field: enabled")
      let text ← orInvalid ((members.lookup (ascii "default_consent")).bind Json.asStr)
        (ascii "consent_enforcement missing required string field: default_consent")
      let defaultConsent ← orInvalid (ConsentLevel.parse text)
        (ascii "invalid consent level " ++ quoted text ++
          ascii " (expected essential_only|analytics_ok|all)")
      let analyticsDomains ←
        parseDomains (ascii "consent_enforcement.analytics_domains must contain only strings")
          (fun _ _ => none)
          (((members.lookup (ascii "analytics_domains")).bind Json.asArray).getD []) []
      let sites ← optionalObject members (ascii "site_overrides")
        (ascii "consent_enforcement.site_overrides must be a JSON object")
      let siteOverrides ← parseSiteOverrides sites []
      let profiles ← optionalObject members (ascii "user_profiles")
        (ascii "consent_enforcement.user_profiles must be a JSON object")
      let userProfiles ← parseUserProfiles profiles []
      return { enabled, defaultConsent, analyticsDomains, siteOverrides, userProfiles }

def parseWebsocketBlocking (rules : Members) : Except IoError Bool :=
  match rules.lookup (ascii "websocket_blocking") with
  | none => .ok true
  | some value => do
      let members ← orInvalid value.asObject (ascii "websocket_blocking must be a JSON object")
      rejectUnknown [ascii "enabled"] members fun key =>
        ascii "unknown websocket_blocking key: " ++ quoted key
      orInvalid ((members.lookup (ascii "enabled")).bind Json.asBool)
        (ascii "websocket_blocking missing required boolean field: enabled")

namespace PolicyConfig

variable (selectorParses : Str → Bool)

/-- Checks of the body-rewrite rule, made only when it is enabled. -/
def validateBodyRewrite (rule : BodyRewriteRule) : Except IoError Unit :=
  if rule.trackerScriptPatterns = [] ∧ rule.removeSelectors = [] ∧ ¬ rule.stripTrackingPixels then
    .error (invalidData
      (ascii "body_rewrite.enabled=true but no patterns, selectors, or pixel stripping configured"))
  else
    match rule.removeSelectors.find? (!selectorParses ·) with
    | some selector =>
        .error (invalidData
          (ascii "invalid CSS selector in body_rewrite.remove_selectors: " ++ quoted selector))
    | none => .ok ()

def validate (cfg : PolicyConfig) : Except IoError Unit :=
  if cfg.version ≠ 1 then
    .error (invalidData (ascii "unsupported policy config version: " ++ decimal cfg.version))
  else if cfg.trackerSetCookie.enabled ∧ cfg.trackerSetCookie.domains = [] then
    .error (invalidData (ascii "tracker_set_cookie.enabled=true but domains list is empty"))
  else if cfg.dnsBlock.enabled ∧ cfg.dnsBlock.domains = [] then
    .error (invalidData (ascii "dns_block.enabled=true but domains list is empty"))
  else if cfg.bodyRewrite.enabled then validateBodyRewrite selectorParses cfg.bodyRewrite
  else .ok ()

def fromJsonValue (value : Json) : Except IoError PolicyConfig := do
  let members ← orInvalid value.asObject (ascii "policy config must be a JSON object")
  rejectUnknown
    [ascii "version", ascii "mode", ascii "rules", ascii "meta", ascii "filter_lists"]
    members fun key => ascii "unknown policy config key: " ++ quoted key
  let version ← orInvalid ((members.lookup (ascii "version")).bind Json.asU64)
    (ascii "policy config missing required integer field: version")
  let modeText ← orInvalid ((members.lookup (ascii "mode")).bind Json.asStr)
    (ascii "policy config missing required string field: mode")
  let mode ← orInvalid (PolicyMode.parseConfigValue modeText)
    (ascii "invalid policy mode " ++ quoted modeText ++
      ascii " (expected disabled|report_only|enforce)")
  let rulesValue ← orInvalid (members.lookup (ascii "rules"))
    (ascii "policy config missing required object field: rules")
  let rules ← orInvalid rulesValue.asObject (ascii "policy rules must be a JSON object")
  rejectUnknown
    [ascii "tracker_set_cookie", ascii "dns_block", ascii "body_rewrite",
      ascii "consent_enforcement", ascii "websocket_blocking"]
    rules fun key => ascii "unknown policy rule: " ++ quoted key
  let trackerSetCookie ← parseTrackerSetCookie rules
  let dnsBlock ← parseDnsBlock rules
  let bodyRewrite ← parseBodyRewrite rules
  let consentEnforcement ← parseConsentEnforcement rules
  let websocketBlockingEnabled ← parseWebsocketBlocking rules
  let cfg : PolicyConfig :=
    { version := version.toNat
      mode, trackerSetCookie, dnsBlock, bodyRewrite, consentEnforcement, websocketBlockingEnabled }
  cfg.validate selectorParses
  return cfg

/-- `validate` looks at no mode. -/
theorem validate_mode (cfg : PolicyConfig) (mode : PolicyMode) :
    { cfg with mode }.validate selectorParses = cfg.validate selectorParses := rfl

/-- Every default configuration is valid. -/
theorem validate_defaultForMode (mode : PolicyMode) :
    (defaultForMode mode).validate selectorParses = .ok () := by
  have filled : (defaultTrackerCookieDomains.map normalizeHost).filter (· ≠ []) ≠ [] := by
    decide +kernel
  have named : (TrackerSetCookieRule.defaultEnabled mode).domains ≠ [] := filled
  simp [validate, defaultForMode, named]

end PolicyConfig

end PrivacyEngine
