import PrivacyEngine.Wire.Text

/-!
# Policy configuration and filter-list rules

The data a policy engine holds: the configuration read from the policy file and the rules
aggregated from the filter lists.  Sets of domains are lists of texts and maps are association
lists; only membership and lookup are ever asked of them.
-/

namespace PrivacyEngine

open Wire

/-- Enforcement mode of the whole policy. -/
inductive PolicyMode where
  | disabled
  | reportOnly
  | enforce
  deriving DecidableEq, Repr

namespace PolicyMode

def asStr : PolicyMode → Str
  | disabled => ascii "disabled"
  | reportOnly => ascii "report_only"
  | enforce => ascii "enforce"

end PolicyMode

/-- Cookie consent given for a site or by a user. -/
inductive ConsentLevel where
  | essentialOnly
  | analyticsOk
  | all
  deriving DecidableEq, Repr

/-- Category of a domain under consent enforcement. -/
inductive DomainCategory where
  | advertising
  | analytics
  deriving DecidableEq, Repr

/-- Lower-case host without surrounding white space or trailing dots. -/
def normalizeHost (host : Str) : Str := toAsciiLowercase (trimEndMatches 46 (trim host))

/-- Domains whose cookies are treated as tracker cookies when no policy file is given. -/
def defaultTrackerCookieDomains : List Str :=
  [ascii "google-analytics.com", ascii "doubleclick.net", ascii "facebook.com",
    ascii "scorecardresearch.com", ascii "adnxs.com"]

structure TrackerSetCookieRule where
  enabled : Bool
  domains : List Str
  deriving DecidableEq

namespace TrackerSetCookieRule

def defaultEnabled (mode : PolicyMode) : TrackerSetCookieRule where
  enabled := mode != .disabled
  domains := (defaultTrackerCookieDomains.map normalizeHost).filter (· ≠ [])

end TrackerSetCookieRule

structure DnsBlockRule where
  enabled : Bool := false
  domains : List Str := []
  deriving DecidableEq

structure BodyRewriteRule where
  enabled : Bool := false
  trackerScriptPatterns : List Str := []
  removeSelectors : List Str := []
  cssInjectSelectors : List Str := []
  stripTrackingPixels : Bool := false
  maxBodyBytes : Nat := 2 * 1024 * 1024
  refererSpoofDomains : List Str := []
  queryParamStripEnabled : Bool := false
  deriving DecidableEq

structure UserProfile where
  name : Str
  consent : ConsentLevel
  deriving DecidableEq

structure ConsentEnforcementRule where
  enabled : Bool := false
  defaultConsent : ConsentLevel := .essentialOnly
  analyticsDomains : List Str := []
  siteOverrides : List (Str × ConsentLevel) := []
  userProfiles : List (Str × UserProfile) := []
  deriving DecidableEq

structure PolicyConfig where
  version : Nat
  mode : PolicyMode
  trackerSetCookie : TrackerSetCookieRule
  dnsBlock : DnsBlockRule
  bodyRewrite : BodyRewriteRule
  consentEnforcement : ConsentEnforcementRule
  websocketBlockingEnabled : Bool
  deriving DecidableEq

namespace PolicyConfig

/-- Configuration used when only a mode is given. -/
def defaultForMode (mode : PolicyMode) : PolicyConfig where
  version := 1
  mode := mode
  trackerSetCookie := .defaultEnabled mode
  dnsBlock := {}
  bodyRewrite := {}
  consentEnforcement := {}
  websocketBlockingEnabled := true

end PolicyConfig

/-- Rules aggregated from all filter lists, without their parse statistics. -/
structure FilterListRules where
  blockDomains : List Str := []
  trackerScriptPatterns : List Str := []
  cosmeticSelectors : List Str := []
  domainCosmeticMap : List (Str × List Str) := []
  exceptionDomains : List Str := []
  deriving DecidableEq

/-- The active configuration and the active filter-list rules. -/
structure PolicyEngine where
  cfg : PolicyConfig
  filterListRules : FilterListRules := {}
  deriving DecidableEq

namespace PolicyEngine

def new (mode : PolicyMode) : PolicyEngine where
  cfg := .defaultForMode mode

def replaceFilterListRules (engine : PolicyEngine) (newRules : FilterListRules) : PolicyEngine :=
  { engine with filterListRules := newRules }

end PolicyEngine

end PrivacyEngine
