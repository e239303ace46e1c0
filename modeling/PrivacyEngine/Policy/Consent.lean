import PrivacyEngine.Policy.Accepted
import PrivacyEngine.Policy.Domains

/-!
# Consent decisions

The level of consent in force for a host and a source address, the category of a host, and the
decision to strip cookies that follows from the two.  A site override counts when it stands for the
longest label suffix of the host that has one.
-/

namespace PrivacyEngine

open Wire

/-- How much a level withholds. -/
def ConsentLevel.strictness : ConsentLevel → Nat
  | essentialOnly => 2
  | analyticsOk => 1
  | all => 0

/-- The level in force: that of the profile of the source address, else that of the longest label
suffix with an override, else the default. -/
inductive EffectiveLevel (rule : ConsentEnforcementRule) (site : Str) (sourceIp : Option Str) :
    ConsentLevel → Prop
  | profile {ip : Str} {profile : UserProfile} (given : sourceIp = some ip)
      (found : rule.userProfiles.lookup ip = some profile) :
      EffectiveLevel rule site sourceIp profile.consent
  | override {domain : Str} {level : ConsentLevel}
      (unprofiled : ∀ ip, sourceIp = some ip → rule.userProfiles.lookup ip = none)
      (belongs : BelongsTo site domain) (found : rule.siteOverrides.lookup domain = some level)
      (longest : ∀ other, BelongsTo site other →
        (rule.siteOverrides.lookup other).isSome = true → other.length ≤ domain.length) :
      EffectiveLevel rule site sourceIp level
  | default (unprofiled : ∀ ip, sourceIp = some ip → rule.userProfiles.lookup ip = none)
      (bare : ∀ domain, BelongsTo site domain → rule.siteOverrides.lookup domain = none) :
      EffectiveLevel rule site sourceIp rule.defaultConsent

/-- The site belongs to an analytics domain. -/
def IsAnalytics (cfg : PolicyConfig) (site : Str) : Prop :=
  ∃ domain ∈ cfg.consentEnforcement.analyticsDomains, BelongsTo site domain

/-- The site belongs to an enabled tracker domain, or to a domain that the filter lists block and
to none that they except. -/
def IsAdvertising (cfg : PolicyConfig) (rules : FilterListRules) (site : Str) : Prop :=
  (cfg.trackerSetCookie.enabled = true ∧
    ∃ domain ∈ cfg.trackerSetCookie.domains, BelongsTo site domain) ∨
  (site ≠ [] ∧ (∃ domain ∈ rules.blockDomains, BelongsTo site domain) ∧
    ¬ ∃ domain ∈ rules.exceptionDomains, BelongsTo site domain)

/-! ## The walk over the overrides -/

section Walk

variable {α : Type} {f : Str → Option α} {domains : List Str}

theorem findSome?_longest
    (shrink : domains.Pairwise fun domain parent => parent.length < domain.length)
    {a : α} :
    domains.findSome? f = some a ↔ ∃ domain ∈ domains, f domain = some a ∧
      ∀ other ∈ domains, (f other).isSome = true → other.length ≤ domain.length := by
  induction domains with
  | nil => simp
  | cons domain domains ih =>
      obtain ⟨shorter, shrink⟩ := List.pairwise_cons.mp shrink
      cases found : f domain with
      | some b =>
          rw [List.findSome?_cons, found]
          constructor
          · rintro ⟨⟩
            refine ⟨domain, List.mem_cons_self, found,
              List.forall_mem_cons.mpr ⟨fun _ => le_rfl, ?_⟩⟩
            exact fun other mem _ => (shorter other mem).le
          · rintro ⟨longest, mem, longestFound, longer⟩
            have bound := longer domain List.mem_cons_self (by rw [found]; rfl)
            rcases List.mem_cons.mp mem with rfl | mem
            · rw [← found, longestFound]
            · exact absurd bound (shorter longest mem).not_ge
      | none =>
          rw [List.findSome?_cons, found, ih shrink]
          simp [found]

end Walk

theorem domainInSetOrParent_iff_of_filled {host : Str} {domains : List Str}
    (filled : [] ∉ domains) :
    domainInSetOrParent host domains = true ↔ ∃ domain ∈ domains, BelongsTo host domain := by
  by_cases named : host = []
  · subst named
    constructor
    · intro within
      cases within
    · rintro ⟨domain, mem, rfl | suffix⟩
      · exact absurd mem filled
      · cases List.suffix_nil.mp suffix
  · exact domainInSetOrParent_iff_belongsTo named

namespace PolicyEngine

variable {engine : PolicyEngine} {host : Str} {sourceIp : Option Str}

theorem siteConsent_eq (site : Str) :
    engine.siteConsent site =
      ((labelSuffixes site).findSome?
        (List.lookup · engine.cfg.consentEnforcement.siteOverrides)).getD
        engine.cfg.consentEnforcement.defaultConsent := by
  rw [siteConsent, labelSuffixes, List.findSome?_cons]
  cases engine.cfg.consentEnforcement.siteOverrides.lookup site <;> rfl

/-- Without a profile, the level of a site is the one in force. -/
theorem siteConsent_effective
    (unprofiled : ∀ ip, sourceIp = some ip →
      engine.cfg.consentEnforcement.userProfiles.lookup ip = none) (site : Str) :
    EffectiveLevel engine.cfg.consentEnforcement site sourceIp (engine.siteConsent site) := by
  rw [siteConsent_eq]
  cases walk : (labelSuffixes site).findSome?
      (List.lookup · engine.cfg.consentEnforcement.siteOverrides) with
  | none =>
      refine .default unprofiled fun domain belongs => ?_
      exact List.findSome?_eq_none_iff.mp walk domain (mem_labelSuffixes.mpr belongs)
  | some level =>
      obtain ⟨domain, mem, found, longest⟩ :=
        (findSome?_longest (labelSuffixes_shrink site)).mp walk
      exact .override unprofiled (mem_labelSuffixes.mp mem) found fun other belongs =>
        longest other (mem_labelSuffixes.mpr belongs)

/-- There is one level in force. -/
theorem siteConsent_eq_of_effective {site : Str} {level : ConsentLevel}
    (effective : EffectiveLevel engine.cfg.consentEnforcement site sourceIp level)
    (unprofiled : ∀ ip, sourceIp = some ip →
      engine.cfg.consentEnforcement.userProfiles.lookup ip = none) :
    engine.siteConsent site = level := by
  rw [siteConsent_eq]
  cases effective with
  | profile given found =>
      rw [unprofiled _ given] at found
      cases found
  | override _ belongs found longest =>
      rw [(findSome?_longest (labelSuffixes_shrink site)).mpr
        ⟨_, mem_labelSuffixes.mpr belongs, found, fun other mem =>
          longest other (mem_labelSuffixes.mp mem)⟩]
      rfl
  | default _ bare =>
      rw [List.findSome?_eq_none_iff.mpr fun domain mem => bare domain (mem_labelSuffixes.mp mem)]
      rfl

/-! ## The plan under consent enforcement -/

section Consenting

variable (consenting : engine.cfg.consentEnforcement.enabled = true)
  (active : engine.cfg.mode ≠ .disabled)

include consenting active

theorem consentLevel_eq_some_iff {level : ConsentLevel} :
    (engine.planForHostWithSourceIp host sourceIp).consentLevel = some level ↔
      EffectiveLevel engine.cfg.consentEnforcement (normalizeHost host) sourceIp level := by
  simp only [planForHostWithSourceIp, consenting, bne_iff_ne.mpr active, Bool.and_self, if_true]
  cases profile : sourceIp.bind fun ip => engine.cfg.consentEnforcement.userProfiles.lookup ip with
  | some profile' =>
      obtain ⟨ip, rfl, found⟩ := Option.bind_eq_some_iff.mp profile
      constructor
      · rintro ⟨⟩
        exact .profile rfl found
      · intro effective
        cases effective with
        | profile given found' =>
            cases given
            rw [found] at found'
            cases found'
            rfl
        | override unprofiled | default unprofiled =>
            rw [unprofiled ip rfl] at found
            cases found
  | none =>
      have unprofiled := Option.bind_eq_none_iff.mp profile
      constructor
      · rintro ⟨⟩
        exact siteConsent_effective unprofiled _
      · exact fun effective => congrArg some (siteConsent_eq_of_effective effective unprofiled)

theorem exists_consentLevel :
    ∃ level, (engine.planForHostWithSourceIp host sourceIp).consentLevel = some level := by
  simp only [planForHostWithSourceIp, consenting, bne_iff_ne.mpr active, Bool.and_self, if_true]
  split
  · exact ⟨_, rfl⟩
  · exact ⟨_, rfl⟩

theorem enableHttp1SetCookieFilter_iff :
    (engine.planForHostWithSourceIp host sourceIp).enableHttp1SetCookieFilter = true ↔
      (engine.planForHostWithSourceIp host sourceIp).domainCategory = some .advertising ∧
        (engine.planForHostWithSourceIp host sourceIp).consentLevel ≠ some .all ∨
      (engine.planForHostWithSourceIp host sourceIp).domainCategory = some .analytics ∧
        (engine.planForHostWithSourceIp host sourceIp).consentLevel = some .essentialOnly := by
  simp only [planForHostWithSourceIp, consenting, bne_iff_ne.mpr active, Bool.and_self, if_true]
  split
  · rename_i category level
    rw [category, level]
    simp
  · rename_i category level
    rw [category]
    simpa using level
  · rename_i category level
    rw [category, level]
    simp
  · rename_i category level
    rw [category]
    simpa using level
  · rename_i category
    rw [category]
    simp

/-- The category looks at the tracker domains, the analytics domains and the filter lists. -/
theorem domainCategory_iff (analytics : [] ∉ engine.cfg.consentEnforcement.analyticsDomains)
    (trackers : [] ∉ engine.cfg.trackerSetCookie.domains) :
    ((engine.planForHostWithSourceIp host sourceIp).domainCategory = some .analytics ↔
      IsAnalytics engine.cfg (normalizeHost host)) ∧
    ((engine.planForHostWithSourceIp host sourceIp).domainCategory = some .advertising ↔
      ¬IsAnalytics engine.cfg (normalizeHost host) ∧
        IsAdvertising engine.cfg engine.filterListRules (normalizeHost host)) ∧
    ((engine.planForHostWithSourceIp host sourceIp).domainCategory = none ↔
      ¬IsAnalytics engine.cfg (normalizeHost host) ∧
        ¬IsAdvertising engine.cfg engine.filterListRules (normalizeHost host)) := by
  have listed : domainInSetOrParent (normalizeHost host)
      engine.cfg.consentEnforcement.analyticsDomains = true ↔ _ :=
    domainInSetOrParent_iff_of_filled analytics
  have advertised : ((if engine.cfg.trackerSetCookie.enabled = true then
        domainInSetOrParent (normalizeHost host) engine.cfg.trackerSetCookie.domains else false) ||
      engine.filterListBlocks (normalizeHost host)) = true ↔
      IsAdvertising engine.cfg engine.filterListRules (normalizeHost host) := by
    rw [Bool.or_eq_true, IsAdvertising, filterListBlocks_iff]
    refine or_congr_left ?_
    rw [← domainInSetOrParent_iff_of_filled trackers]
    split
    · rename_i on
      simp [on]
    · rename_i off
      simp [off]
  simp only [planForHostWithSourceIp, consenting, bne_iff_ne.mpr active, Bool.and_true,
    Bool.true_and, if_true]
  rw [IsAnalytics, ← listed]
  by_cases analytic : domainInSetOrParent (normalizeHost host)
      engine.cfg.consentEnforcement.analyticsDomains = true
  · simp [analytic]
  · by_cases advertising : IsAdvertising engine.cfg engine.filterListRules (normalizeHost host)
    · rw [if_neg analytic, if_pos (advertised.mpr advertising)]
      simp [analytic, advertising]
    · rw [if_neg analytic, if_neg (mt advertised.mp advertising)]
      simp [analytic, advertising]

end Consenting

/-- What is stripped at one level is stripped at every stricter one. -/
theorem enableHttp1SetCookieFilter_mono {stricter : PolicyEngine} {sourceIp' : Option Str}
    (consenting : engine.cfg.consentEnforcement.enabled = true)
    (active : engine.cfg.mode ≠ .disabled)
    (consenting' : stricter.cfg.consentEnforcement.enabled = true)
    (active' : stricter.cfg.mode ≠ .disabled)
    (trackers : stricter.cfg.trackerSetCookie = engine.cfg.trackerSetCookie)
    (analytics : stricter.cfg.consentEnforcement.analyticsDomains =
      engine.cfg.consentEnforcement.analyticsDomains)
    (lists : stricter.filterListRules = engine.filterListRules) {level level' : ConsentLevel}
    (levelled : (engine.planForHostWithSourceIp host sourceIp).consentLevel = some level)
    (levelled' : (stricter.planForHostWithSourceIp host sourceIp').consentLevel = some level')
    (strict : level.strictness ≤ level'.strictness)
    (strips : (engine.planForHostWithSourceIp host sourceIp).enableHttp1SetCookieFilter = true) :
    (stricter.planForHostWithSourceIp host sourceIp').enableHttp1SetCookieFilter = true := by
  have category : (stricter.planForHostWithSourceIp host sourceIp').domainCategory =
      (engine.planForHostWithSourceIp host sourceIp).domainCategory := by
    simp only [planForHostWithSourceIp, consenting, consenting', bne_iff_ne.mpr active,
      bne_iff_ne.mpr active', trackers, analytics, filterListBlocks, lists]
  rw [enableHttp1SetCookieFilter_iff consenting active, levelled] at strips
  rw [enableHttp1SetCookieFilter_iff consenting' active', levelled', category]
  rcases strips with ⟨advertising, withheld⟩ | ⟨analytic, essential⟩
  · refine .inl ⟨advertising, ?_⟩
    rintro ⟨⟩
    cases level <;> simp [ConsentLevel.strictness] at strict withheld
  · refine .inr ⟨analytic, ?_⟩
    cases essential
    cases level' <;> simp [ConsentLevel.strictness] at strict ⊢

end PolicyEngine

/-- Under consent enforcement, the level in force and the category of the host decide about its
cookies, and a stricter level strips at least what a laxer one does. -/
theorem consent_decides {selectorParses : Str → Bool} (engine : PolicyEngine)
    (accepted : engine.cfg.Accepted selectorParses)
    (consenting : engine.cfg.consentEnforcement.enabled = true)
    (active : engine.cfg.mode ≠ .disabled) (host : Str) (sourceIp : Option Str) :
    let site := normalizeHost host
    let plan := engine.planForHostWithSourceIp host sourceIp
    ((∃ level, plan.consentLevel = some level) ∧
      ∀ level, plan.consentLevel = some level ↔
        EffectiveLevel engine.cfg.consentEnforcement site sourceIp level) ∧
    ((plan.domainCategory = some .analytics ↔ IsAnalytics engine.cfg site) ∧
      (plan.domainCategory = some .advertising ↔
        ¬IsAnalytics engine.cfg site ∧ IsAdvertising engine.cfg engine.filterListRules site) ∧
      (plan.domainCategory = none ↔
        ¬IsAnalytics engine.cfg site ∧ ¬IsAdvertising engine.cfg engine.filterListRules site)) ∧
    (plan.enableHttp1SetCookieFilter = true ↔
      plan.domainCategory = some .advertising ∧ plan.consentLevel ≠ some .all ∨
      plan.domainCategory = some .analytics ∧ plan.consentLevel = some .essentialOnly) ∧
    ∀ (stricter : PolicyEngine) (sourceIp' : Option Str) (level level' : ConsentLevel),
      stricter.cfg.Accepted selectorParses → stricter.cfg.consentEnforcement.enabled = true →
      stricter.cfg.mode ≠ .disabled →
      stricter.cfg.trackerSetCookie = engine.cfg.trackerSetCookie →
      stricter.cfg.consentEnforcement.analyticsDomains =
        engine.cfg.consentEnforcement.analyticsDomains →
      stricter.filterListRules = engine.filterListRules →
      plan.consentLevel = some level →
      (stricter.planForHostWithSourceIp host sourceIp').consentLevel = some level' →
      level.strictness ≤ level'.strictness → plan.enableHttp1SetCookieFilter = true →
      (stricter.planForHostWithSourceIp host sourceIp').enableHttp1SetCookieFilter = true := by
  refine ⟨⟨PolicyEngine.exists_consentLevel consenting active,
      fun level => PolicyEngine.consentLevel_eq_some_iff consenting active⟩,
    PolicyEngine.domainCategory_iff consenting active accepted.analyticsDomains_filled
      accepted.trackerDomains_filled,
    PolicyEngine.enableHttp1SetCookieFilter_iff consenting active, ?_⟩
  intro stricter sourceIp' level level' _ consenting' active' trackers analytics lists levelled
    levelled' strict strips
  exact PolicyEngine.enableHttp1SetCookieFilter_mono consenting active consenting' active' trackers
    analytics lists levelled levelled' strict strips

namespace ConsentExample

/-- A policy with an override for a site and a profile for an address. -/
def value : Json :=
  .object [
    (ascii "version", .number (.posInt 1)),
    (ascii "mode", .string (ascii "enforce")),
    (ascii "rules", .object [
      (ascii "tracker_set_cookie", .object [
        (ascii "enabled", .bool true),
        (ascii "domains", .array [.string (ascii "ads.example.com")])]),
      (ascii "consent_enforcement", .object [
        (ascii "enabled", .bool true),
        (ascii "default_consent", .string (ascii "all")),
        (ascii "analytics_domains", .array [.string (ascii "stats.example.com")]),
        (ascii "site_overrides", .object [
          (ascii "example.com", .string (ascii "analytics_ok"))]),
        (ascii "user_profiles", .object [
          (ascii "10.0.0.1", .object [
            (ascii "name", .string (ascii "kid")),
            (ascii "consent", .string (ascii "essential_only"))])])])])]

def cfg : PolicyConfig where
  version := 1
  mode := .enforce
  trackerSetCookie := { enabled := true, domains := [ascii "ads.example.com"] }
  dnsBlock := {}
  bodyRewrite := {}
  consentEnforcement :=
    { enabled := true
      defaultConsent := .all
      analyticsDomains := [ascii "stats.example.com"]
      siteOverrides := [(ascii "example.com", .analyticsOk)]
      userProfiles := [(ascii "10.0.0.1", { name := ascii "kid", consent := .essentialOnly })] }
  websocketBlockingEnabled := true

theorem accepted : cfg.Accepted fun _ => true := @PolicyConfig.Accepted.read _ value cfg rfl

end ConsentExample

theorem consent_decides_for_kid :
    let engine : PolicyEngine := { cfg := ConsentExample.cfg }
    let plan := engine.planForHostWithSourceIp (ascii "WWW.stats.example.com.")
      (some (ascii "10.0.0.1"))
    EffectiveLevel engine.cfg.consentEnforcement (ascii "www.stats.example.com")
      (some (ascii "10.0.0.1")) .essentialOnly ∧ plan.enableHttp1SetCookieFilter = true := by
  have decided := consent_decides { cfg := ConsentExample.cfg } ConsentExample.accepted rfl
    (by decide) (ascii "WWW.stats.example.com.") (some (ascii "10.0.0.1"))
  refine ⟨(decided.1.2 .essentialOnly).mp (by decide +kernel), decided.2.2.1.mpr (.inr ⟨?_, ?_⟩)⟩
  · decide +kernel
  · decide +kernel

end PrivacyEngine
