import PrivacyEngine.Policy.Parse

/-!
# Accepted configurations

What is known of a configuration that has been read from a JSON value: the members its rules come
from, the domains in its sets, the entries of its maps, and that it passes the validation, in
whatever mode it is used.
-/

namespace PrivacyEngine

open Wire

/-! ## Questions to a value -/

section Questions

variable {value : Json} {members : Members} {key : Str}

theorem asObject_eq_some_iff {inner : Members} :
    value.asObject = some inner ↔ value = .object inner := by
  cases value <;> simp [Json.asObject]

theorem asArray_eq_some_iff {items : List Json} :
    value.asArray = some items ↔ value = .array items := by
  cases value <;> simp [Json.asArray]

theorem asStr_eq_some_iff {text : Str} : value.asStr = some text ↔ value = .string text := by
  cases value <;> simp [Json.asStr]

theorem asBool_eq_some_iff {flag : Bool} : value.asBool = some flag ↔ value = .bool flag := by
  cases value <;> simp [Json.asBool]

theorem asU64_eq_some_iff {n : UInt64} :
    value.asU64 = some n ↔ value = .number (.posInt n) := by
  cases value with
  | number number => cases number <;> simp [Json.asU64]
  | _ => simp [Json.asU64]

theorem lookup_bind_eq_some_iff {α : Type} {ask : Json → Option α} {make : α → Json}
    (answers : ∀ {value a}, ask value = some a ↔ value = make a) {a : α} :
    (members.lookup key).bind ask = some a ↔ members.lookup key = some (make a) := by
  rw [Option.bind_eq_some_iff]
  constructor
  · rintro ⟨value, found, answered⟩
    rw [found, answers.mp answered]
  · exact fun found => ⟨make a, found, answers.mpr rfl⟩

end Questions

section Steps

variable {α : Type}

theorem orInvalid_eq_ok_iff {value : Option α} {message : Str} {a : α} :
    orInvalid value message = .ok a ↔ value = some a := by
  cases value <;> simp [orInvalid]

theorem rejectUnknown_eq_ok_iff {allowed : List Str} {members : Members} {message : Str → Str}
    {done : Unit} :
    rejectUnknown allowed members message = .ok done ↔
      ∀ member ∈ members, member.1 ∈ allowed := by
  rw [rejectUnknown]
  cases found : members.find? fun member => !allowed.contains member.1 with
  | none => simpa using found
  | some member =>
      have unknown : member.1 ∉ allowed := by simpa using List.find?_some found
      constructor
      · intro refused
        cases refused
      · intro known
        exact absurd (known member (List.mem_of_find?_eq_some found)) unknown

theorem lookup_filter_ne (map : List (Str × α)) (key other : Str) :
    (map.filter (·.1 ≠ key)).lookup other = if other = key then none else map.lookup other := by
  induction map with
  | nil => simp
  | cons entry map ih =>
      obtain ⟨name, stored⟩ := entry
      rw [List.filter_cons]
      by_cases here : name = key
      · rw [if_neg (by simp [here]), ih, List.lookup_cons]
        by_cases same : other = key
        · rw [if_pos same, if_pos same]
        · rw [if_neg same, if_neg same, here, beq_eq_false_iff_ne.mpr same]
      · rw [if_pos (by simp [here]), List.lookup_cons, List.lookup_cons, ih]
        by_cases same : other = name
        · subst same
          simp [here]
        · rw [beq_eq_false_iff_ne.mpr same]

theorem insertKey_lookup (map : List (Str × α)) (key : Str) (value : α) (other : Str) :
    (insertKey map key value).lookup other =
      if other = key then some value else map.lookup other := by
  rw [insertKey, List.lookup_append, lookup_filter_ne, List.lookup_cons, List.lookup_nil]
  by_cases same : other = key
  · subst same
    simp
  · rw [if_neg same, if_neg same, beq_eq_false_iff_ne.mpr same]
    simp

end Steps

/-! ## Domains -/

theorem mem_insertDistinct {set : List Str} {element other : Str} :
    other ∈ insertDistinct set element ↔ other ∈ set ∨ other = element := by
  rw [insertDistinct]
  split
  · rename_i listed
    constructor
    · exact .inl
    · rintro (old | rfl)
      · exact old
      · simpa using listed
  · simp

/-- A set has the normalized names of some texts, but for the empty one. -/
def DomainsOf (texts domains : List Str) : Prop :=
  ∀ domain, domain ∈ domains ↔ domain ≠ [] ∧ ∃ text ∈ texts, normalizeHost text = domain

theorem parseDomains_onto {onlyStrings : Str} {refuse : Str → Str → Option Str}
    {entries : List Json} {domains result : List Str}
    (parses : parseDomains onlyStrings refuse entries domains = .ok result) :
    ∃ texts : List Str, entries = texts.map .string ∧
      ∀ domain, domain ∈ result ↔
        domain ∈ domains ∨ domain ≠ [] ∧ ∃ text ∈ texts, normalizeHost text = domain := by
  induction entries generalizing domains with
  | nil =>
      cases parses
      exact ⟨[], rfl, by simp⟩
  | cons entry entries ih =>
      obtain ⟨raw, string, rest⟩ := bind_eq_ok_iff.mp parses
      rw [orInvalid_eq_ok_iff, asStr_eq_some_iff] at string
      dsimp only at rest
      split at rest
      · rename_i blank
        obtain ⟨texts, rfl, members⟩ := ih rest
        refine ⟨raw :: texts, by rw [string, List.map_cons], fun domain => ?_⟩
        rw [members, List.exists_mem_cons_iff, blank]
        exact or_congr_right (and_congr_right fun filled => (or_iff_right (Ne.symm filled)).symm)
      · rename_i filled
        split at rest
        · cases rest
        · obtain ⟨texts, rfl, members⟩ := ih rest
          refine ⟨raw :: texts, by rw [string, List.map_cons], fun domain => ?_⟩
          rw [members, List.exists_mem_cons_iff, mem_insertDistinct, or_assoc]
          refine or_congr_right ?_
          by_cases same : normalizeHost raw = domain
          · subst same
            simp [filled]
          · simp [same, Ne.symm same]

theorem parseDomains_ok {onlyStrings : Str} {refuse : Str → Str → Option Str}
    {entries : List Json} {result : List Str}
    (parses : parseDomains onlyStrings refuse entries [] = .ok result) :
    ∃ texts : List Str, entries = texts.map .string ∧ DomainsOf texts result := by
  obtain ⟨texts, strings, members⟩ := parseDomains_onto parses
  exact ⟨texts, strings, fun domain => by simpa using members domain⟩

theorem DomainsOf.filled {texts domains : List Str} (named : DomainsOf texts domains) :
    [] ∉ domains := fun mem => ((named []).mp mem).1 rfl

/-! ## Rules -/

/-- A rule made of a flag and a list of domains. -/
structure ReadDomainRule (members : Members) (enabled : Bool) (domains : List Str) : Prop where
  known : ∀ member ∈ members, member.1 ∈ [ascii "enabled", ascii "domains"]
  enabled : members.lookup (ascii "enabled") = some (.bool enabled)
  domains : ∃ texts : List Str,
    members.lookup (ascii "domains") = some (.array (texts.map .string)) ∧ DomainsOf texts domains

theorem parseTrackerSetCookie_ok {rules : Members} {rule : TrackerSetCookieRule}
    (parses : parseTrackerSetCookie rules = .ok rule) :
    ∃ members, rules.lookup (ascii "tracker_set_cookie") = some (.object members) ∧
      ReadDomainRule members rule.enabled rule.domains := by
  simp only [parseTrackerSetCookie, bind_eq_ok_iff, orInvalid_eq_ok_iff, pure_eq_ok_iff,
    rejectUnknown_eq_ok_iff, asObject_eq_some_iff, asArray_eq_some_iff,
    lookup_bind_eq_some_iff asBool_eq_some_iff] at parses
  obtain ⟨-, found, members, rfl, -, known, enabled, flag, -, listed, entries, rfl, domains, set,
    rfl⟩ := parses
  obtain ⟨texts, rfl, named⟩ := parseDomains_ok set
  exact ⟨members, found, known, flag, texts, listed, named⟩

theorem parseDnsBlock_ok {rules : Members} {rule : DnsBlockRule}
    (parses : parseDnsBlock rules = .ok rule) :
    rules.lookup (ascii "dns_block") = none ∧ rule = {} ∨
      ∃ members, rules.lookup (ascii "dns_block") = some (.object members) ∧
        ReadDomainRule members rule.enabled rule.domains := by
  rw [parseDnsBlock] at parses
  cases found : rules.lookup (ascii "dns_block") with
  | none =>
      rw [found] at parses
      exact .inl ⟨rfl, (Except.ok.inj parses).symm⟩
  | some value =>
      simp only [found, bind_eq_ok_iff, orInvalid_eq_ok_iff, pure_eq_ok_iff,
        rejectUnknown_eq_ok_iff, asObject_eq_some_iff,
        lookup_bind_eq_some_iff asArray_eq_some_iff,
        lookup_bind_eq_some_iff asBool_eq_some_iff] at parses
      obtain ⟨members, rfl, -, known, enabled, flag, entries, listed, domains, set, rfl⟩ := parses
      obtain ⟨texts, rfl, named⟩ := parseDomains_ok set
      exact .inr ⟨members, rfl, known, flag, texts, listed, named⟩

/-- Keys of the body-rewrite rule. -/
def bodyRewriteKeys : List Str :=
  [ascii "enabled", ascii "tracker_script_patterns", ascii "remove_selectors",
    ascii "css_inject_selectors", ascii "strip_tracking_pixels", ascii "max_body_bytes",
    ascii "referer_spoof_domains", ascii "query_param_strip_enabled"]

structure ReadBodyRewrite (members : Members) (rule : BodyRewriteRule) : Prop where
  known : ∀ member ∈ members, member.1 ∈ bodyRewriteKeys
  enabled : members.lookup (ascii "enabled") = some (.bool rule.enabled)
  trackerScriptPatterns :
    rule.trackerScriptPatterns = stringsOf members (ascii "tracker_script_patterns")
  removeSelectors : rule.removeSelectors = stringsOf members (ascii "remove_selectors")
  cssInjectSelectors : rule.cssInjectSelectors = stringsOf members (ascii "css_inject_selectors")
  stripTrackingPixels : rule.stripTrackingPixels = flagOf members (ascii "strip_tracking_pixels")
  maxBodyBytes : rule.maxBodyBytes =
    (((members.lookup (ascii "max_body_bytes")).bind Json.asU64).map UInt64.toNat).getD
      (2 * 1024 * 1024)
  refererSpoofDomains : ∃ texts : List Str,
    ((members.lookup (ascii "referer_spoof_domains")).bind Json.asArray).getD [] =
      texts.map .string ∧ DomainsOf texts rule.refererSpoofDomains
  queryParamStripEnabled :
    rule.queryParamStripEnabled = flagOf members (ascii "query_param_strip_enabled")

theorem parseBodyRewrite_ok {rules : Members} {rule : BodyRewriteRule}
    (parses : parseBodyRewrite rules = .ok rule) :
    rules.lookup (ascii "body_rewrite") = none ∧ rule = {} ∨
      ∃ members, rules.lookup (ascii "body_rewrite") = some (.object members) ∧
        ReadBodyRewrite members rule := by
  rw [parseBodyRewrite] at parses
  cases found : rules.lookup (ascii "body_rewrite") with
  | none =>
      rw [found] at parses
      exact .inl ⟨rfl, (Except.ok.inj parses).symm⟩
  | some value =>
      simp only [found, bind_eq_ok_iff, orInvalid_eq_ok_iff, pure_eq_ok_iff,
        rejectUnknown_eq_ok_iff, asObject_eq_some_iff,
        lookup_bind_eq_some_iff asBool_eq_some_iff] at parses
      obtain ⟨members, rfl, -, known, enabled, flag, domains, set, rfl⟩ := parses
      exact .inr ⟨members, rfl, known, flag, rfl, rfl, rfl, rfl, rfl, parseDomains_ok set, rfl⟩

/-- A value names a consent level. -/
def ReadLevel (value : Json) (level : ConsentLevel) : Prop :=
  ∃ text, value = .string text ∧ ConsentLevel.parse text = some level

theorem ReadLevel.unique {value : Json} {level other : ConsentLevel} (read : ReadLevel value level)
    (read' : ReadLevel value other) : level = other := by
  obtain ⟨text, rfl, named⟩ := read
  obtain ⟨_, ⟨⟩, named'⟩ := read'
  exact Option.some.inj (named.symm.trans named')

/-- An object names a profile. -/
def ReadProfile (value : Json) (profile : UserProfile) : Prop :=
  ∃ members, value = .object members ∧
    (∀ member ∈ members, member.1 ∈ [ascii "name", ascii "consent"]) ∧
    members.lookup (ascii "name") = some (.string profile.name) ∧
    ∃ consent, members.lookup (ascii "consent") = some consent ∧ ReadLevel consent profile.consent

/-- Members of an object are stored in a map under their names, a later one in the place of an
earlier one. -/
structure ReadInto {α : Type} (name : Str → Str) (reads : Json → α → Prop) (members : Members)
    (map result : List (Str × α)) : Prop where
  typed : ∀ member ∈ members, ∃ a, reads member.2 a
  stored : ∀ member ∈ members, (result.lookup (name member.1)).isSome = true
  kept : ∀ key, (map.lookup key).isSome = true → (result.lookup key).isSome = true
  origin : ∀ key a, result.lookup key = some a →
    map.lookup key = some a ∨ ∃ member ∈ members, name member.1 = key ∧ reads member.2 a

namespace ReadInto

variable {α : Type} {name : Str → Str} {reads : Json → α → Prop} {members : Members}
  {map result : List (Str × α)}

theorem nil : ReadInto name reads [] map map where
  typed := by simp
  stored := by simp
  kept _ present := present
  origin _ _ found := .inl found

theorem cons {key : Str} {value : Json} {a : α} (read : reads value a)
    (rest : ReadInto name reads members (insertKey map (name key) a) result) :
    ReadInto name reads ((key, value) :: members) map result where
  typed := List.forall_mem_cons.mpr ⟨⟨a, read⟩, rest.typed⟩
  stored := List.forall_mem_cons.mpr
    ⟨rest.kept _ (by rw [insertKey_lookup, if_pos rfl]; rfl), rest.stored⟩
  kept other present := by
    refine rest.kept other ?_
    rw [insertKey_lookup]
    split
    · rfl
    · exact present
  origin other b found := by
    rcases rest.origin other b found with old | ⟨member, mem, named, read'⟩
    · rw [insertKey_lookup] at old
      split at old
      · rename_i same
        cases old
        exact .inr ⟨(key, value), List.mem_cons_self, same.symm, read⟩
      · exact .inl old
    · exact .inr ⟨member, List.mem_cons_of_mem _ mem, named, read'⟩

end ReadInto

theorem parseSiteOverrides_ok {sites : Members} {overrides result : List (Str × ConsentLevel)}
    (parses : parseSiteOverrides sites overrides = .ok result) :
    ReadInto normalizeHost ReadLevel sites overrides result := by
  induction sites generalizing overrides with
  | nil =>
      cases parses
      exact .nil
  | cons site sites ih =>
      simp only [parseSiteOverrides, bind_eq_ok_iff, orInvalid_eq_ok_iff,
        asStr_eq_some_iff] at parses
      obtain ⟨text, string, level, named, rest⟩ := parses
      exact .cons ⟨text, string, named⟩ (ih rest)

theorem parseUserProfile_ok {ip : Str} {value : Json} {profile : UserProfile}
    (parses : parseUserProfile ip value = .ok profile) : ReadProfile value profile := by
  simp only [parseUserProfile, bind_eq_ok_iff, orInvalid_eq_ok_iff, pure_eq_ok_iff,
    rejectUnknown_eq_ok_iff, asObject_eq_some_iff,
    lookup_bind_eq_some_iff asStr_eq_some_iff] at parses
  obtain ⟨members, rfl, -, known, name, named, text, consents, level, parsed, rfl⟩ := parses
  exact ⟨members, rfl, known, named, _, consents, text, rfl, parsed⟩

theorem parseUserProfiles_ok {ips : Members} {profiles result : List (Str × UserProfile)}
    (parses : parseUserProfiles ips profiles = .ok result) :
    ReadInto id ReadProfile ips profiles result := by
  induction ips generalizing profiles with
  | nil =>
      cases parses
      exact .nil
  | cons entry ips ih =>
      obtain ⟨profile, read, rest⟩ := bind_eq_ok_iff.mp parses
      exact .cons (parseUserProfile_ok read) (ih rest)

theorem optionalObject_ok {members inner : Members} {key message : Str}
    (finds : optionalObject members key message = .ok inner) :
    members.lookup key = none ∧ inner = [] ∨ members.lookup key = some (.object inner) := by
  rw [optionalObject] at finds
  cases found : members.lookup key with
  | none =>
      rw [found] at finds
      exact .inl ⟨rfl, (Except.ok.inj finds).symm⟩
  | some value =>
      rw [found, orInvalid_eq_ok_iff, asObject_eq_some_iff] at finds
      exact .inr (congrArg some finds)

structure ReadConsent (members : Members) (rule : ConsentEnforcementRule) : Prop where
  known : ∀ member ∈ members, member.1 ∈
    [ascii "enabled", ascii "default_consent", ascii "analytics_domains", ascii "site_overrides",
      ascii "user_profiles"]
  enabled : members.lookup (ascii "enabled") = some (.bool rule.enabled)
  defaultConsent : ∃ value, members.lookup (ascii "default_consent") = some value ∧
    ReadLevel value rule.defaultConsent
  analyticsDomains : ∃ texts : List Str,
    ((members.lookup (ascii "analytics_domains")).bind Json.asArray).getD [] =
      texts.map .string ∧ DomainsOf texts rule.analyticsDomains
  siteOverrides : ∃ sites, (members.lookup (ascii "site_overrides") = none ∧ sites = [] ∨
      members.lookup (ascii "site_overrides") = some (.object sites)) ∧
    ReadInto normalizeHost ReadLevel sites [] rule.siteOverrides
  userProfiles : ∃ ips, (members.lookup (ascii "user_profiles") = none ∧ ips = [] ∨
      members.lookup (ascii "user_profiles") = some (.object ips)) ∧
    ReadInto id ReadProfile ips [] rule.userProfiles

theorem parseConsentEnforcement_ok {rules : Members} {rule : ConsentEnforcementRule}
    (parses : parseConsentEnforcement rules = .ok rule) :
    rules.lookup (ascii "consent_enforcement") = none ∧ rule = {} ∨
      ∃ members, rules.lookup (ascii "consent_enforcement") = some (.object members) ∧
        ReadConsent members rule := by
  rw [parseConsentEnforcement] at parses
  cases found : rules.lookup (ascii "consent_enforcement") with
  | none =>
      rw [found] at parses
      exact .inl ⟨rfl, (Except.ok.inj parses).symm⟩
  | some value =>
      simp only [found, bind_eq_ok_iff, orInvalid_eq_ok_iff, pure_eq_ok_iff,
        rejectUnknown_eq_ok_iff, asObject_eq_some_iff,
        lookup_bind_eq_some_iff asStr_eq_some_iff,
        lookup_bind_eq_some_iff asBool_eq_some_iff] at parses
      obtain ⟨members, rfl, -, known, enabled, flag, text, consents, level, named, domains, set,
        sites, sitesFound, overrides, stored, ips, ipsFound, profiles, kept, rfl⟩ := parses
      exact .inr ⟨members, rfl, known, flag, ⟨_, consents, text, rfl, named⟩, parseDomains_ok set,
        ⟨sites, optionalObject_ok sitesFound, parseSiteOverrides_ok stored⟩,
        ⟨ips, optionalObject_ok ipsFound, parseUserProfiles_ok kept⟩⟩

theorem parseWebsocketBlocking_ok {rules : Members} {enabled : Bool}
    (parses : parseWebsocketBlocking rules = .ok enabled) :
    rules.lookup (ascii "websocket_blocking") = none ∧ enabled = true ∨
      ∃ members, rules.lookup (ascii "websocket_blocking") = some (.object members) ∧
        (∀ member ∈ members, member.1 ∈ [ascii "enabled"]) ∧
        members.lookup (ascii "enabled") = some (.bool enabled) := by
  rw [parseWebsocketBlocking] at parses
  cases found : rules.lookup (ascii "websocket_blocking") with
  | none =>
      rw [found] at parses
      exact .inl ⟨rfl, (Except.ok.inj parses).symm⟩
  | some value =>
      simp only [found, bind_eq_ok_iff, orInvalid_eq_ok_iff, rejectUnknown_eq_ok_iff,
        asObject_eq_some_iff, lookup_bind_eq_some_iff asBool_eq_some_iff] at parses
      obtain ⟨members, rfl, -, known, flag⟩ := parses
      exact .inr ⟨members, rfl, known, flag⟩

/-! ## Configurations -/

namespace PolicyConfig

variable (selectorParses : Str → Bool)

/-- A configuration as it is read from the members of a value and of its rules. -/
structure ReadFrom (members rules : Members) (cfg : PolicyConfig) : Prop where
  known : ∀ member ∈ members, member.1 ∈
    [ascii "version", ascii "mode", ascii "rules", ascii "meta", ascii "filter_lists"]
  version : ∃ version : UInt64,
    members.lookup (ascii "version") = some (.number (.posInt version)) ∧
      version.toNat = cfg.version
  mode : ∃ text, members.lookup (ascii "mode") = some (.string text) ∧
    PolicyMode.parseConfigValue text = some cfg.mode
  found : members.lookup (ascii "rules") = some (.object rules)
  knownRules : ∀ rule ∈ rules, rule.1 ∈
    [ascii "tracker_set_cookie", ascii "dns_block", ascii "body_rewrite",
      ascii "consent_enforcement", ascii "websocket_blocking"]
  trackerSetCookie : parseTrackerSetCookie rules = .ok cfg.trackerSetCookie
  dnsBlock : parseDnsBlock rules = .ok cfg.dnsBlock
  bodyRewrite : parseBodyRewrite rules = .ok cfg.bodyRewrite
  consentEnforcement : parseConsentEnforcement rules = .ok cfg.consentEnforcement
  websocketBlocking : parseWebsocketBlocking rules = .ok cfg.websocketBlockingEnabled
  valid : cfg.validate selectorParses = .ok ()

variable {selectorParses}

theorem fromJsonValue_ok {value : Json} {cfg : PolicyConfig}
    (reads : fromJsonValue selectorParses value = .ok cfg) :
    ∃ members rules, value = .object members ∧ ReadFrom selectorParses members rules cfg := by
  simp only [fromJsonValue, bind_eq_ok_iff, orInvalid_eq_ok_iff, pure_eq_ok_iff,
    rejectUnknown_eq_ok_iff, asObject_eq_some_iff, lookup_bind_eq_some_iff asU64_eq_some_iff,
    lookup_bind_eq_some_iff asStr_eq_some_iff] at reads
  obtain ⟨members, rfl, -, known, version, numbered, text, named, mode, parsed, -, found, rules,
    rfl, -, knownRules, tracker, trackerRead, dns, dnsRead, body, bodyRead, consent, consentRead,
    websocket, websocketRead, ⟨⟩, valid, rfl⟩ := reads
  exact ⟨members, rules, rfl, known, ⟨version, numbered, rfl⟩, ⟨text, named, parsed⟩, found,
    knownRules, trackerRead, dnsRead, bodyRead, consentRead, websocketRead, valid⟩

/-- An enabled body-rewrite rule that passes has something to rewrite, and selectors that parse. -/
theorem bodyRewrite_of_valid {cfg : PolicyConfig} (valid : cfg.validate selectorParses = .ok ())
    (enabled : cfg.bodyRewrite.enabled = true) :
    (cfg.bodyRewrite.trackerScriptPatterns ≠ [] ∨ cfg.bodyRewrite.removeSelectors ≠ [] ∨
      cfg.bodyRewrite.stripTrackingPixels = true) ∧
    ∀ selector ∈ cfg.bodyRewrite.removeSelectors, selectorParses selector = true := by
  rw [validate] at valid
  split at valid
  · cases valid
  split at valid
  · cases valid
  split at valid
  · cases valid
  rw [validateBodyRewrite] at valid
  split at valid
  · cases valid
  · rename_i acts
    refine ⟨by simpa only [not_and_or, not_not] using acts, ?_⟩
    split at valid
    · cases valid
    · rename_i none_fails
      simpa using none_fails

variable (selectorParses)

/-- A configuration read from a value, in its own mode or in another one. -/
inductive Accepted : PolicyConfig → Prop
  | read {value : Json} {cfg : PolicyConfig}
      (reads : fromJsonValue selectorParses value = .ok cfg) :
      Accepted cfg
  | overridden {cfg : PolicyConfig} (mode : PolicyMode) (accepted : Accepted cfg) :
      Accepted { cfg with mode }

variable {selectorParses}

namespace Accepted

variable {cfg : PolicyConfig}

theorem valid (accepted : Accepted selectorParses cfg) :
    cfg.validate selectorParses = .ok () := by
  induction accepted with
  | read reads =>
      obtain ⟨members, rules, -, read⟩ := fromJsonValue_ok reads
      exact read.valid
  | overridden mode accepted ih => exact ih

/-- No set of an accepted configuration has the empty name. -/
theorem trackerDomains_filled (accepted : Accepted selectorParses cfg) :
    [] ∉ cfg.trackerSetCookie.domains := by
  induction accepted with
  | read reads =>
      obtain ⟨members, rules, -, read⟩ := fromJsonValue_ok reads
      obtain ⟨inner, -, rule⟩ := parseTrackerSetCookie_ok read.trackerSetCookie
      obtain ⟨texts, -, named⟩ := rule.domains
      exact named.filled
  | overridden mode accepted ih => exact ih

theorem analyticsDomains_filled (accepted : Accepted selectorParses cfg) :
    [] ∉ cfg.consentEnforcement.analyticsDomains := by
  induction accepted with
  | read reads =>
      obtain ⟨members, rules, -, read⟩ := fromJsonValue_ok reads
      rcases parseConsentEnforcement_ok read.consentEnforcement with ⟨-, absent⟩ | ⟨_, -, rule⟩
      · rw [absent]
        exact List.not_mem_nil
      · obtain ⟨texts, -, named⟩ := rule.analyticsDomains
        exact named.filled
  | overridden mode accepted ih => exact ih

end Accepted

end PolicyConfig

end PrivacyEngine
