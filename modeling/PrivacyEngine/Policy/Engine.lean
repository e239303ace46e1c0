import PrivacyEngine.Policy.Config

/-!
# Policy decisions

The plans a policy engine derives for a host: the session plan of a tunnel, the answer to a DNS
query, and the body rewriting plan; and the header policy applied to the first response.  Every
decision reads one configuration and one set of filter-list rules.
-/

namespace PrivacyEngine

open Wire

/-! ## Domain matching -/

/-- The texts behind each dot of a host: the values the loop over `split_once('.')` visits. -/
def parentDomains : Str → List Str
  | [] => []
  | b :: rest => if b = 46 then rest :: parentDomains rest else parentDomains rest

/-- Whether a host or one of its parent domains is in a set. -/
def domainInSetOrParent (host : Str) (domains : List Str) : Bool :=
  if host = [] then false
  else domains.contains host || (parentDomains host).any domains.contains

theorem domainInSetOrParent_iff {host : Str} {domains : List Str} :
    domainInSetOrParent host domains = true ↔
      host ≠ [] ∧ ∃ domain ∈ host :: parentDomains host, domain ∈ domains := by
  rw [domainInSetOrParent]
  split
  · rename_i empty
    exact ⟨fun absurd => (Bool.false_ne_true absurd).elim, fun both => absurd empty both.1⟩
  · rename_i filled
    simp [filled]

theorem domainInSetOrParent_mono {host : Str} {domains more : List Str} (grows : domains ⊆ more)
    (within : domainInSetOrParent host domains = true) : domainInSetOrParent host more = true := by
  obtain ⟨filled, domain, parent, mem⟩ := domainInSetOrParent_iff.mp within
  exact domainInSetOrParent_iff.mpr ⟨filled, domain, parent, grows mem⟩

/-! ## Plans -/

structure SessionPlan where
  mode : PolicyMode
  trackerMatch : Bool
  enableHttp1SetCookieFilter : Bool
  consentEnforcementActive : Bool
  consentLevel : Option ConsentLevel
  domainCategory : Option DomainCategory
  userProfileName : Option Str
  websocketBlockingEnabled : Bool
  deriving DecidableEq

structure DnsQueryPlan where
  mode : PolicyMode
  shouldBlock : Bool
  deriving DecidableEq

structure BodyRewritePlan where
  mode : PolicyMode
  shouldRewrite : Bool
  manualScriptPatterns : List Str
  filterScriptPatterns : List Str
  manualRemoveSelectors : List Str
  filterRemoveSelectors : List Str
  domainRemoveSelectors : List (List Str)
  cssInjectSelectors : List Str
  stripTrackingPixels : Bool
  maxBodyBytes : Nat
  refererSpoof : Bool
  queryParamStrip : Bool
  deriving DecidableEq

namespace PolicyEngine

variable (engine : PolicyEngine)

/-- Whether the filter lists block a normalized host. -/
def filterListBlocks (normalized : Str) : Bool :=
  domainInSetOrParent normalized engine.filterListRules.blockDomains &&
    !domainInSetOrParent normalized engine.filterListRules.exceptionDomains

/-- Consent level stored for the host itself, else for its closest parent domain, else the
default. -/
def siteConsent (normalized : Str) : ConsentLevel :=
  let overrides := engine.cfg.consentEnforcement.siteOverrides
  ((overrides.lookup normalized).or
    ((parentDomains normalized).findSome? (List.lookup · overrides))).getD
    engine.cfg.consentEnforcement.defaultConsent

def planForHostWithSourceIp (host : Str) (sourceIp : Option Str) : SessionPlan :=
  let normalized := normalizeHost host
  let mode := engine.cfg.mode
  let consent := engine.cfg.consentEnforcement
  let consentActive := consent.enabled && mode != .disabled
  let manual :=
    if engine.cfg.trackerSetCookie.enabled && mode != .disabled then
      domainInSetOrParent normalized engine.cfg.trackerSetCookie.domains
    else false
  let isAdvertising := manual || (mode != .disabled && engine.filterListBlocks normalized)
  let isAnalytics := consentActive && domainInSetOrParent normalized consent.analyticsDomains
  let domainCategory :=
    if consentActive then
      if isAnalytics then some DomainCategory.analytics
      else if isAdvertising then some DomainCategory.advertising
      else none
    else none
  let trackerMatch := isAdvertising || isAnalytics
  let userProfile :=
    if consentActive then sourceIp.bind fun ip => consent.userProfiles.lookup ip else none
  let consentLevel :=
    if consentActive then
      match userProfile with
      | some profile => some profile.consent
      | none => some (engine.siteConsent normalized)
    else none
  let enableFilter :=
    if consentActive then
      match domainCategory, consentLevel with
      | some .advertising, some .all => false
      | some .advertising, _ => true
      | some .analytics, some .essentialOnly => true
      | some .analytics, _ => false
      | none, _ => false
    else trackerMatch && mode != .disabled
  { mode
    trackerMatch
    enableHttp1SetCookieFilter := enableFilter
    consentEnforcementActive := consentActive
    consentLevel
    domainCategory
    userProfileName := userProfile.map UserProfile.name
    websocketBlockingEnabled := engine.cfg.websocketBlockingEnabled }

def planForHost (host : Str) : SessionPlan :=
  engine.planForHostWithSourceIp host none

@[simp] theorem planForHostWithSourceIp_mode (host : Str) (sourceIp : Option Str) :
    (engine.planForHostWithSourceIp host sourceIp).mode = engine.cfg.mode := rfl

def planForDnsQuery (host : Str) : DnsQueryPlan :=
  let normalized := normalizeHost host
  let mode := engine.cfg.mode
  if mode = .disabled then { mode, shouldBlock := false }
  else
    let manual :=
      if engine.cfg.dnsBlock.enabled then
        domainInSetOrParent normalized engine.cfg.dnsBlock.domains
      else false
    { mode, shouldBlock := manual || engine.filterListBlocks normalized }

@[simp] theorem planForDnsQuery_mode (host : Str) :
    (engine.planForDnsQuery host).mode = engine.cfg.mode := by
  unfold planForDnsQuery
  dsimp only
  split <;> rfl

def planForBodyRewrite (host : Str) : BodyRewritePlan :=
  let normalized := normalizeHost host
  let mode := engine.cfg.mode
  let rule := engine.cfg.bodyRewrite
  let rules := engine.filterListRules
  let manualScriptPatterns := if rule.enabled then rule.trackerScriptPatterns else []
  let manualRemoveSelectors := if rule.enabled then rule.removeSelectors else []
  let stripTrackingPixels := rule.enabled && rule.stripTrackingPixels
  let filterScriptPatterns := if mode != .disabled then rules.trackerScriptPatterns else []
  let filterRemoveSelectors := if mode != .disabled then rules.cosmeticSelectors else []
  let domainRemoveSelectors :=
    if mode != .disabled then
      (normalized :: parentDomains normalized).filterMap (List.lookup · rules.domainCosmeticMap)
    else []
  let cssInjectSelectors := if rule.enabled then rule.cssInjectSelectors else []
  { mode
    shouldRewrite := mode != .disabled &&
      (stripTrackingPixels || !manualScriptPatterns.isEmpty || !filterScriptPatterns.isEmpty ||
        !manualRemoveSelectors.isEmpty || !filterRemoveSelectors.isEmpty ||
        !domainRemoveSelectors.isEmpty || !cssInjectSelectors.isEmpty)
    manualScriptPatterns
    filterScriptPatterns
    manualRemoveSelectors
    filterRemoveSelectors
    domainRemoveSelectors
    cssInjectSelectors
    stripTrackingPixels
    maxBodyBytes := rule.maxBodyBytes
    refererSpoof := mode != .disabled && rule.enabled && !rule.refererSpoofDomains.isEmpty &&
      domainInSetOrParent normalized rule.refererSpoofDomains
    queryParamStrip := mode != .disabled && rule.enabled && rule.queryParamStripEnabled }

@[simp] theorem planForBodyRewrite_mode (host : Str) :
    (engine.planForBodyRewrite host).mode = engine.cfg.mode := rfl

end PolicyEngine

/-! ## Header policy of the first response -/

/-- Index just behind the first empty line. -/
def findHeadersEnd (buf : Bytes) : Option Nat := (findSub crlfcrlf buf).map (· + 4)

theorem findHeadersEnd_le {buf : Bytes} {headerEnd : Nat}
    (found : findHeadersEnd buf = some headerEnd) : headerEnd ≤ buf.length := by
  obtain ⟨i, occurs, rfl⟩ := Option.map_eq_some_iff.mp found
  exact findSub_bound crlfcrlf_ne_nil occurs

def startsWithAsciiCaseInsensitive (haystack lit : Bytes) : Bool :=
  decide (lit.length ≤ haystack.length) && eqIgnoreAsciiCase (haystack.take lit.length) lit

theorem startsWithAsciiCaseInsensitive_iff {s lit : Bytes} :
    startsWithAsciiCaseInsensitive s lit = true ↔ toAsciiLowercase lit <+: toAsciiLowercase s := by
  simp only [startsWithAsciiCaseInsensitive, eqIgnoreAsciiCase, Bool.and_eq_true,
    decide_eq_true_eq, beq_iff_eq]
  constructor
  · rintro ⟨-, taken⟩
    rw [← taken]
    exact (List.take_prefix _ _).map asciiLower
  · intro starts
    have length_le := starts.length_le
    simp only [toAsciiLowercase, List.length_map] at length_le
    refine ⟨length_le, ?_⟩
    have cut := List.prefix_iff_eq_take.mp starts
    simp only [toAsciiLowercase, List.length_map, List.map_take] at cut ⊢
    exact cut.symm

def stripTrailingCr (line : Bytes) : Bytes :=
  if line.getLast? = some 13 then line.dropLast else line

structure HeaderPolicyOutcome where
  outputHeaders : Bytes
  trackerMatch : Bool
  setCookieCount : Nat
  enforcementApplied : Bool
  reportOnlyHit : Bool
  consentEnforcementActive : Bool
  consentLevel : Option ConsentLevel
  domainCategory : Option DomainCategory
  userProfileName : Option Str
  deriving DecidableEq

def setCookieField : Bytes := ascii "set-cookie:"

/-- Header lines of a block: line-feed separated, each without one trailing carriage return. -/
def headerLines (headerBlock : Bytes) (headerEnd : Nat) : List Bytes :=
  ((headerBlock.take (headerEnd - 2)).splitOn 10).map stripTrailingCr

/-- The pieces of a line and its end that the filter treats as lines. -/
def linePieces (line : Bytes) : List Bytes := ((line ++ [13]).splitOn 10).map stripTrailingCr

theorem linePieces_of_no_lf {line : Bytes} (no_lf : 10 ∉ line) : linePieces line = [line] := by
  have absent : 10 ∉ line ++ [13] := by
    rw [List.mem_append, not_or]
    exact ⟨no_lf, by decide⟩
  rw [linePieces, List.splitOn_eq_singleton absent]
  simp [stripTrailingCr]

/-- Lines that are closed by CRLF, and the empty piece behind the last of them. -/
theorem map_stripTrailingCr_closed (lines : List Bytes) :
    ((lines.flatMap (· ++ crlf)).splitOn 10).map stripTrailingCr =
      lines.flatMap linePieces ++ [[]] := by
  induction lines with
  | nil => rfl
  | cons line lines ih =>
      have closed : (line :: lines).flatMap (· ++ crlf) =
          (line ++ [13]) ++ 10 :: lines.flatMap (· ++ crlf) := by simp [crlf]
      rw [closed, List.splitOn_append_cons_self, List.map_append, ih]
      simp [linePieces]

/-- The block rebuilt from its status line and its other lines. -/
def rebuildHeaders (statusLine : Bytes) (lines : List Bytes) (rest : Bytes) : Bytes :=
  statusLine ++ crlf ++ lines.flatMap (· ++ crlf) ++ crlf ++ rest

/-- An outcome that leaves the block alone. -/
def SessionPlan.untouched (plan : SessionPlan) (headerBlock : Bytes) : HeaderPolicyOutcome where
  outputHeaders := headerBlock
  trackerMatch := plan.trackerMatch
  setCookieCount := 0
  enforcementApplied := false
  reportOnlyHit := false
  consentEnforcementActive := plan.consentEnforcementActive
  consentLevel := plan.consentLevel
  domainCategory := plan.domainCategory
  userProfileName := plan.userProfileName

def PolicyEngine.applyHttp1ResponseHeaderPolicy (engine : PolicyEngine) (host : Str)
    (headerBlock : Bytes) (sourceIp : Option Str) : HeaderPolicyOutcome :=
  let plan := engine.planForHostWithSourceIp host sourceIp
  if !plan.enableHttp1SetCookieFilter then plan.untouched headerBlock
  else
    match findHeadersEnd headerBlock with
    | none => plan.untouched headerBlock
    | some headerEnd =>
        match headerLines headerBlock headerEnd with
        | [] => plan.untouched headerBlock
        | statusLine :: lines =>
            let isSetCookie := fun line => startsWithAsciiCaseInsensitive line setCookieField
            let setCookieCount := lines.countP isSetCookie
            let kept := if plan.mode = .enforce then lines.filter (!isSetCookie ·) else lines
            { plan.untouched headerBlock with
              outputHeaders :=
                if plan.mode = .enforce then
                  rebuildHeaders statusLine kept (headerBlock.drop headerEnd)
                else headerBlock
              setCookieCount
              enforcementApplied := plan.mode == .enforce && 0 < setCookieCount
              reportOnlyHit := plan.mode == .reportOnly && 0 < setCookieCount }

/-- The policy rebuilds a block only under enforcement; otherwise it returns the block itself. -/
theorem PolicyEngine.outputHeaders_cases (engine : PolicyEngine) (host : Str) (headerBlock : Bytes)
    (sourceIp : Option Str) :
    (engine.applyHttp1ResponseHeaderPolicy host headerBlock sourceIp).outputHeaders = headerBlock ∨
      engine.cfg.mode = .enforce ∧ ∃ statusLine lines rest,
        (engine.applyHttp1ResponseHeaderPolicy host headerBlock sourceIp).outputHeaders =
          rebuildHeaders statusLine lines rest := by
  unfold applyHttp1ResponseHeaderPolicy
  dsimp only
  split
  · exact .inl rfl
  · split
    · exact .inl rfl
    · split
      · exact .inl rfl
      · dsimp only
        split
        · rename_i enforcing
          exact .inr ⟨enforcing, _, _, _, rfl⟩
        · exact .inl rfl

/-- A policy that reports or strips has seen a field. -/
theorem PolicyEngine.setCookieCount_pos {engine : PolicyEngine} {host : Str} {headerBlock : Bytes}
    {sourceIp : Option Str}
    (hit : ((engine.applyHttp1ResponseHeaderPolicy host headerBlock sourceIp).reportOnlyHit ||
      (engine.applyHttp1ResponseHeaderPolicy host headerBlock sourceIp).enforcementApplied) =
        true) :
    0 < (engine.applyHttp1ResponseHeaderPolicy host headerBlock sourceIp).setCookieCount := by
  unfold applyHttp1ResponseHeaderPolicy at hit ⊢
  dsimp only at hit ⊢
  split
  · rename_i off
    rw [if_pos off] at hit
    cases hit
  · rename_i off
    rw [if_neg off] at hit
    cases ends : findHeadersEnd headerBlock with
    | none =>
        rw [ends] at hit
        cases hit
    | some headerEnd =>
        simp only [ends] at hit ⊢
        cases lines : headerLines headerBlock headerEnd with
        | nil =>
            rw [lines] at hit
            cases hit
        | cons statusLine lines' =>
            simp only [lines, Bool.or_eq_true, Bool.and_eq_true, decide_eq_true_eq] at hit ⊢
            exact hit.elim (·.2) (·.2)

end PrivacyEngine
