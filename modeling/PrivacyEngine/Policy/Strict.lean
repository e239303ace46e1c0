import Mathlib.Data.List.Forall2
import PrivacyEngine.Policy.Accepted

/-!
# How strictly a policy is read

A value is reflected in a configuration if every key under its rules is a documented one, has a
value of the documented type, and is found again in the configuration.  An accepted value need not
be reflected: optional members of another type than the documented one, blank domains, and all but
one of the overrides for one site are dropped without a word.  A value without any of these is
reflected.
-/

namespace PrivacyEngine

open Wire

/-! ## Documents -/

/-- An object whose every member is listed and is as its entry asks. -/
def ObjectOf (fields : List (Str × (Json → Prop))) (value : Json) : Prop :=
  ∃ members, value = .object members ∧
    ∀ member ∈ members, ∃ asks, (member.1, asks) ∈ fields ∧ asks member.2

/-- Two tables with the same keys that ask the same of the members at hand. -/
def AskSame (members : Members) : List (Str × (Json → Prop)) → List (Str × (Json → Prop)) → Prop :=
  List.Forall₂ fun field field' =>
    field.1 = field'.1 ∧ ∀ value, (field.1, value) ∈ members → (field.2 value ↔ field'.2 value)

theorem AskSame.symm {members : Members} {fields fields' : List (Str × (Json → Prop))}
    (same : AskSame members fields fields') : AskSame members fields' fields := by
  refine List.Forall₂.flip (same.imp ?_)
  rintro field field' ⟨key, asks⟩
  exact ⟨key.symm, fun value mem => (asks value (key ▸ mem)).symm⟩

theorem AskSame.exists_of_mem {members : Members} {fields fields' : List (Str × (Json → Prop))}
    (same : AskSame members fields fields') {key : Str} {asks : Json → Prop}
    (mem : (key, asks) ∈ fields) :
    ∃ asks', (key, asks') ∈ fields' ∧
      ∀ value, (key, value) ∈ members → (asks value ↔ asks' value) := by
  induction same with
  | nil => cases mem
  | @cons field field' fields fields' head tail ih =>
      rcases List.mem_cons.mp mem with rfl | mem
      · obtain ⟨rfl, each⟩ := head
        exact ⟨field'.2, List.mem_cons_self, each⟩
      · obtain ⟨asks', mem', each⟩ := ih mem
        exact ⟨asks', List.mem_cons_of_mem _ mem', each⟩

theorem ObjectOf.of_askSame {members : Members} {fields fields' : List (Str × (Json → Prop))}
    (same : AskSame members fields fields') (document : ObjectOf fields (.object members)) :
    ObjectOf fields' (.object members) := by
  obtain ⟨_, ⟨⟩, each⟩ := document
  refine ⟨members, rfl, fun member mem => ?_⟩
  obtain ⟨asks, listed, met⟩ := each member mem
  obtain ⟨asks', listed', alike⟩ := same.exists_of_mem listed
  exact ⟨asks', listed', (alike member.2 mem).mp met⟩

theorem objectOf_congr {members : Members} {fields fields' : List (Str × (Json → Prop))}
    (same : AskSame members fields fields') :
    ObjectOf fields (.object members) ↔ ObjectOf fields' (.object members) :=
  ⟨.of_askSame same, .of_askSame same.symm⟩

theorem ObjectOf.nil {fields : List (Str × (Json → Prop))} : ObjectOf fields (.object []) :=
  ⟨[], rfl, by simp⟩

theorem ObjectOf.cons {members : Members} {fields : List (Str × (Json → Prop))} {key : Str}
    {value : Json} {asks : Json → Prop} (listed : (key, asks) ∈ fields) (met : asks value)
    (document : ObjectOf fields (.object members)) :
    ObjectOf fields (.object ((key, value) :: members)) := by
  obtain ⟨_, ⟨⟩, each⟩ := document
  exact ⟨_, rfl, List.forall_mem_cons.mpr ⟨⟨asks, listed, met⟩, each⟩⟩

theorem ObjectOf.meets {members : Members} {fields : List (Str × (Json → Prop))}
    (document : ObjectOf fields (.object members)) (distinct : (fields.map (·.1)).Nodup)
    {key : Str} {value : Json} {asks : Json → Prop} (mem : (key, value) ∈ members)
    (listed : (key, asks) ∈ fields) : asks value := by
  obtain ⟨_, ⟨⟩, each⟩ := document
  obtain ⟨asks', listed', met⟩ := each _ mem
  have same := Json.lookup_of_mem_of_nodup distinct listed
  rw [Json.lookup_of_mem_of_nodup distinct listed'] at same
  exact Option.some.inj same ▸ met

/-- Any value will do. -/
def AnyValue (_ : Json) : Prop := True

/-! ## What a configuration says of a value -/

namespace Reflects

def Flag (flag : Bool) (value : Json) : Prop := value = .bool flag

def Number (n : Nat) (value : Json) : Prop :=
  ∃ number : UInt64, value = .number (.posInt number) ∧ number.toNat = n

def Mode (mode : PolicyMode) (value : Json) : Prop :=
  ∃ text, value = .string text ∧ PolicyMode.parseConfigValue text = some mode

def Level (level : ConsentLevel) (value : Json) : Prop := ReadLevel value level

def Texts (texts : List Str) (value : Json) : Prop := value = .array (texts.map .string)

/-- Every entry is in the set under its normalized name, and nothing else is. -/
def Domains (domains : List Str) (value : Json) : Prop :=
  ∃ texts : List Str, value = .array (texts.map .string) ∧
    ∀ domain, domain ∈ domains ↔ ∃ text ∈ texts, normalizeHost text = domain

/-- Every site has its own level under its normalized name. -/
def Sites (overrides : List (Str × ConsentLevel)) (value : Json) : Prop :=
  ∃ sites, value = .object sites ∧ ∀ site ∈ sites, ∃ level,
    overrides.lookup (normalizeHost site.1) = some level ∧ Level level site.2

def Profiles (profiles : List (Str × UserProfile)) (value : Json) : Prop :=
  ∃ ips, value = .object ips ∧ ∀ entry ∈ ips, ∃ profile,
    profiles.lookup entry.1 = some profile ∧
      ObjectOf [(ascii "name", fun name => name = .string profile.name),
        (ascii "consent", Level profile.consent)] entry.2

end Reflects

open Reflects in
/-- Every key of a value and of its rules is documented, of the documented type, and reflected in
the configuration; `meta` is free-form and `filter_lists` is read elsewhere. -/
def Reflected (cfg : PolicyConfig) : Json → Prop :=
  ObjectOf
    [(ascii "version", Number cfg.version),
      (ascii "mode", Mode cfg.mode),
      (ascii "rules", ObjectOf
        [(ascii "tracker_set_cookie", ObjectOf
            [(ascii "enabled", Flag cfg.trackerSetCookie.enabled),
              (ascii "domains", Domains cfg.trackerSetCookie.domains)]),
          (ascii "dns_block", ObjectOf
            [(ascii "enabled", Flag cfg.dnsBlock.enabled),
              (ascii "domains", Domains cfg.dnsBlock.domains)]),
          (ascii "body_rewrite", ObjectOf
            [(ascii "enabled", Flag cfg.bodyRewrite.enabled),
              (ascii "tracker_script_patterns", Texts cfg.bodyRewrite.trackerScriptPatterns),
              (ascii "remove_selectors", Texts cfg.bodyRewrite.removeSelectors),
              (ascii "css_inject_selectors", Texts cfg.bodyRewrite.cssInjectSelectors),
              (ascii "strip_tracking_pixels", Flag cfg.bodyRewrite.stripTrackingPixels),
              (ascii "max_body_bytes", Number cfg.bodyRewrite.maxBodyBytes),
              (ascii "referer_spoof_domains", Domains cfg.bodyRewrite.refererSpoofDomains),
              (ascii "query_param_strip_enabled", Flag cfg.bodyRewrite.queryParamStripEnabled)]),
          (ascii "consent_enforcement", ObjectOf
            [(ascii "enabled", Flag cfg.consentEnforcement.enabled),
              (ascii "default_consent", Level cfg.consentEnforcement.defaultConsent),
              (ascii "analytics_domains", Domains cfg.consentEnforcement.analyticsDomains),
              (ascii "site_overrides", Sites cfg.consentEnforcement.siteOverrides),
              (ascii "user_profiles", Profiles cfg.consentEnforcement.userProfiles)]),
          (ascii "websocket_blocking", ObjectOf
            [(ascii "enabled", Flag cfg.websocketBlockingEnabled)])]),
      (ascii "meta", AnyValue),
      (ascii "filter_lists", AnyValue)]

/-! ## What a value has to avoid -/

namespace Tidy

def Flag (value : Json) : Prop := ∃ flag, value = .bool flag

def Number (value : Json) : Prop := ∃ number, value = .number (.posInt number)

def Texts (value : Json) : Prop := ∃ texts : List Str, value = .array (texts.map .string)

/-- Texts none of which is blank. -/
def Names (value : Json) : Prop :=
  ∃ texts : List Str, value = .array (texts.map .string) ∧
    ∀ text ∈ texts, normalizeHost text ≠ []

/-- Sites with one normalized name have one level. -/
def Sites (value : Json) : Prop :=
  ∀ sites, value = .object sites → ∀ site ∈ sites, ∀ other ∈ sites,
    normalizeHost site.1 = normalizeHost other.1 →
      ∀ level, ReadLevel site.2 level → ReadLevel other.2 level

end Tidy

open Tidy in
/-- The optional members are of their types, no domain is blank, and no two overrides for a site
disagree. -/
def Tidy : Json → Prop :=
  ObjectOf
    [(ascii "version", AnyValue),
      (ascii "mode", AnyValue),
      (ascii "rules", ObjectOf
        [(ascii "tracker_set_cookie", ObjectOf
            [(ascii "enabled", AnyValue), (ascii "domains", Names)]),
          (ascii "dns_block", ObjectOf [(ascii "enabled", AnyValue), (ascii "domains", Names)]),
          (ascii "body_rewrite", ObjectOf
            [(ascii "enabled", AnyValue),
              (ascii "tracker_script_patterns", Texts),
              (ascii "remove_selectors", Texts),
              (ascii "css_inject_selectors", Texts),
              (ascii "strip_tracking_pixels", Flag),
              (ascii "max_body_bytes", Number),
              (ascii "referer_spoof_domains", Names),
              (ascii "query_param_strip_enabled", Flag)]),
          (ascii "consent_enforcement", ObjectOf
            [(ascii "enabled", AnyValue),
              (ascii "default_consent", AnyValue),
              (ascii "analytics_domains", Names),
              (ascii "site_overrides", Sites),
              (ascii "user_profiles", AnyValue)]),
          (ascii "websocket_blocking", ObjectOf [(ascii "enabled", AnyValue)])]),
      (ascii "meta", AnyValue),
      (ascii "filter_lists", AnyValue)]

/-! ## Field by field -/

section Fields

variable {members : Members} {key : Str} {value : Json}

theorem texts_inj {texts texts' : List Str}
    (same : Json.array (texts.map .string) = .array (texts'.map .string)) : texts = texts' :=
  List.map_injective_iff.mpr (fun _ _ => Json.string.inj) (Json.array.inj same)

theorem domains_iff_names {texts domains : List Str} (named : DomainsOf texts domains) :
    Reflects.Domains domains (.array (texts.map .string)) ↔
      Tidy.Names (.array (texts.map .string)) := by
  constructor
  · rintro ⟨texts', same, members⟩
    cases texts_inj same
    refine ⟨texts, rfl, fun text mem blank => named.filled ?_⟩
    exact (members []).mpr ⟨text, mem, blank⟩
  · rintro ⟨texts', same, filled⟩
    cases texts_inj same
    refine ⟨texts, rfl, fun domain => ?_⟩
    rw [named, and_iff_right_iff_imp]
    rintro ⟨text, mem, rfl⟩
    exact filled text mem

theorem optional_domains_iff (found : members.lookup key = some value) {domains : List Str}
    (read : ∃ texts : List Str, ((members.lookup key).bind Json.asArray).getD [] =
      texts.map .string ∧ DomainsOf texts domains) :
    Reflects.Domains domains value ↔ Tidy.Names value := by
  obtain ⟨texts, listed, named⟩ := read
  cases value with
  | array items =>
      simp only [found, Option.bind_some, Json.asArray, Option.getD_some] at listed
      rw [listed]
      exact domains_iff_names named
  | _ => simp [Reflects.Domains, Tidy.Names]

theorem optional_texts_iff (found : members.lookup key = some value) {texts : List Str}
    (read : texts = stringsOf members key) : Reflects.Texts texts value ↔ Tidy.Texts value := by
  constructor
  · exact fun same => ⟨texts, same⟩
  · rintro ⟨texts', rfl⟩
    rw [read, stringsOf, found, Option.bind_some, Json.asArray, Option.map_some, Option.getD_some,
      Json.filterMap_asStr_map_string]
    rfl

theorem optional_flag_iff (found : members.lookup key = some value) {flag : Bool}
    (read : flag = flagOf members key) : Reflects.Flag flag value ↔ Tidy.Flag value := by
  constructor
  · exact fun same => ⟨flag, same⟩
  · rintro ⟨flag', rfl⟩
    rw [read, flagOf, found]
    rfl

theorem optional_number_iff (found : members.lookup key = some value) {n fallback : Nat}
    (read : n = (((members.lookup key).bind Json.asU64).map UInt64.toNat).getD fallback) :
    Reflects.Number n value ↔ Tidy.Number value := by
  constructor
  · rintro ⟨number, rfl, -⟩
    exact ⟨number, rfl⟩
  · rintro ⟨number, rfl⟩
    refine ⟨number, rfl, ?_⟩
    rw [read, found]
    rfl

theorem sites_iff {sites : Members} {overrides : List (Str × ConsentLevel)}
    (read : ReadInto normalizeHost ReadLevel sites [] overrides) :
    Reflects.Sites overrides (.object sites) ↔ Tidy.Sites (.object sites) := by
  constructor
  · rintro ⟨_, ⟨⟩, each⟩ _ ⟨⟩ site mem other mem' same level named
    obtain ⟨stored, found, named'⟩ := each site mem
    obtain ⟨stored', found', named''⟩ := each other mem'
    rw [← same, found] at found'
    cases found'
    exact named'.unique named ▸ named''
  · intro agree
    refine ⟨sites, rfl, fun site mem => ?_⟩
    obtain ⟨level, found⟩ := Option.isSome_iff_exists.mp (read.stored site mem)
    rcases read.origin _ _ found with nothing | ⟨other, mem', same, named⟩
    · cases nothing
    · exact ⟨level, found, agree sites rfl other mem' site mem same level named⟩

theorem profiles_of_read {ips : Members} {profiles : List (Str × UserProfile)}
    (distinct : (Json.object ips).DistinctKeys)
    (read : ReadInto id ReadProfile ips [] profiles) :
    Reflects.Profiles profiles (.object ips) := by
  obtain ⟨nodup, each⟩ := distinct.object_inv
  refine ⟨ips, rfl, fun entry mem => ?_⟩
  obtain ⟨profile, found⟩ := Option.isSome_iff_exists.mp (read.stored entry mem)
  rcases read.origin _ _ found with nothing | ⟨other, mem', same, readProfile⟩
  · cases nothing
  · have alike : other.2 = entry.2 := by
      have first := Json.lookup_of_mem_of_nodup nodup mem'
      have second := Json.lookup_of_mem_of_nodup nodup mem
      rw [show other.1 = entry.1 from same, second] at first
      exact (Option.some.inj first).symm
    rw [alike] at readProfile
    obtain ⟨inner, object, known, named, consent, consents, level⟩ := readProfile
    have nodup' := (object ▸ each entry mem).object_inv.1
    refine ⟨profile, found, inner, object, ?_⟩
    rintro ⟨key, value⟩ mem
    have here := Json.lookup_of_mem_of_nodup nodup' mem
    rcases List.mem_pair.mp (known _ mem) with rfl | rfl
    · rw [named] at here
      exact ⟨_, List.mem_cons_self, (Option.some.inj here).symm⟩
    · rw [consents] at here
      exact ⟨_, List.mem_cons_of_mem _ List.mem_cons_self, Option.some.inj here ▸ level⟩

end Fields

/-! ## Rule by rule -/

section Rules

variable {members : Members}

theorem domainRule_iff {enabled : Bool} {domains : List Str}
    (distinct : (members.map (·.1)).Nodup) (read : ReadDomainRule members enabled domains) :
    ObjectOf [(ascii "enabled", Reflects.Flag enabled),
        (ascii "domains", Reflects.Domains domains)] (.object members) ↔
      ObjectOf [(ascii "enabled", AnyValue), (ascii "domains", Tidy.Names)] (.object members) := by
  refine objectOf_congr (.cons ⟨rfl, fun value mem => ?_⟩ (.cons ⟨rfl, fun value mem => ?_⟩ .nil))
  · have found := Json.lookup_of_mem_of_nodup distinct mem
    rw [read.enabled] at found
    exact iff_of_true (Option.some.inj found).symm trivial
  · have found := Json.lookup_of_mem_of_nodup distinct mem
    obtain ⟨texts, listed, named⟩ := read.domains
    rw [listed] at found
    exact Option.some.inj found ▸ domains_iff_names named

theorem bodyRewrite_iff {rule : BodyRewriteRule} (distinct : (members.map (·.1)).Nodup)
    (read : ReadBodyRewrite members rule) :
    ObjectOf [(ascii "enabled", Reflects.Flag rule.enabled),
        (ascii "tracker_script_patterns", Reflects.Texts rule.trackerScriptPatterns),
        (ascii "remove_selectors", Reflects.Texts rule.removeSelectors),
        (ascii "css_inject_selectors", Reflects.Texts rule.cssInjectSelectors),
        (ascii "strip_tracking_pixels", Reflects.Flag rule.stripTrackingPixels),
        (ascii "max_body_bytes", Reflects.Number rule.maxBodyBytes),
        (ascii "referer_spoof_domains", Reflects.Domains rule.refererSpoofDomains),
        (ascii "query_param_strip_enabled", Reflects.Flag rule.queryParamStripEnabled)]
        (.object members) ↔
      ObjectOf [(ascii "enabled", AnyValue), (ascii "tracker_script_patterns", Tidy.Texts),
        (ascii "remove_selectors", Tidy.Texts), (ascii "css_inject_selectors", Tidy.Texts),
        (ascii "strip_tracking_pixels", Tidy.Flag), (ascii "max_body_bytes", Tidy.Number),
        (ascii "referer_spoof_domains", Tidy.Names),
        (ascii "query_param_strip_enabled", Tidy.Flag)] (.object members) := by
  have found := fun key value => @Json.lookup_of_mem_of_nodup _ _ distinct key value
  refine objectOf_congr (.cons ⟨rfl, fun value mem => ?_⟩ (.cons ⟨rfl, fun value mem => ?_⟩
    (.cons ⟨rfl, fun value mem => ?_⟩ (.cons ⟨rfl, fun value mem => ?_⟩
    (.cons ⟨rfl, fun value mem => ?_⟩ (.cons ⟨rfl, fun value mem => ?_⟩
    (.cons ⟨rfl, fun value mem => ?_⟩ (.cons ⟨rfl, fun value mem => ?_⟩ .nil))))))))
  · have enabled := read.enabled.symm.trans (found _ _ mem)
    exact iff_of_true (Option.some.inj enabled).symm trivial
  · exact optional_texts_iff (found _ _ mem) read.trackerScriptPatterns
  · exact optional_texts_iff (found _ _ mem) read.removeSelectors
  · exact optional_texts_iff (found _ _ mem) read.cssInjectSelectors
  · exact optional_flag_iff (found _ _ mem) read.stripTrackingPixels
  · exact optional_number_iff (found _ _ mem) read.maxBodyBytes
  · exact optional_domains_iff (found _ _ mem) read.refererSpoofDomains
  · exact optional_flag_iff (found _ _ mem) read.queryParamStripEnabled

theorem consent_iff {rule : ConsentEnforcementRule} (distinct : (Json.object members).DistinctKeys)
    (read : ReadConsent members rule) :
    ObjectOf [(ascii "enabled", Reflects.Flag rule.enabled),
        (ascii "default_consent", Reflects.Level rule.defaultConsent),
        (ascii "analytics_domains", Reflects.Domains rule.analyticsDomains),
        (ascii "site_overrides", Reflects.Sites rule.siteOverrides),
        (ascii "user_profiles", Reflects.Profiles rule.userProfiles)] (.object members) ↔
      ObjectOf [(ascii "enabled", AnyValue), (ascii "default_consent", AnyValue),
        (ascii "analytics_domains", Tidy.Names), (ascii "site_overrides", Tidy.Sites),
        (ascii "user_profiles", AnyValue)] (.object members) := by
  obtain ⟨nodup, each⟩ := distinct.object_inv
  have found := fun key value => @Json.lookup_of_mem_of_nodup _ _ nodup key value
  refine objectOf_congr (.cons ⟨rfl, fun value mem => ?_⟩ (.cons ⟨rfl, fun value mem => ?_⟩
    (.cons ⟨rfl, fun value mem => ?_⟩ (.cons ⟨rfl, fun value mem => ?_⟩
    (.cons ⟨rfl, fun value mem => ?_⟩ .nil)))))
  · have enabled := read.enabled.symm.trans (found _ _ mem)
    exact iff_of_true (Option.some.inj enabled).symm trivial
  · obtain ⟨value', named, level⟩ := read.defaultConsent
    rw [found _ _ mem] at named
    exact iff_of_true (Option.some.inj named ▸ level) trivial
  · exact optional_domains_iff (found _ _ mem) read.analyticsDomains
  · obtain ⟨sites, ⟨absent, -⟩ | object, stored⟩ := read.siteOverrides
    · rw [found _ _ mem] at absent
      cases absent
    · rw [found _ _ mem] at object
      cases object
      exact sites_iff stored
  · obtain ⟨ips, ⟨absent, -⟩ | object, stored⟩ := read.userProfiles
    · rw [found _ _ mem] at absent
      cases absent
    · rw [found _ _ mem] at object
      cases object
      exact iff_of_true (profiles_of_read (each _ mem) stored) trivial

end Rules

/-! ## Whole values -/

namespace StrictExample

/-- A policy whose pixel flag is the given value. -/
def value (pixels : Json) : Json :=
  .object [
    (ascii "version", .number (.posInt 1)),
    (ascii "mode", .string (ascii "enforce")),
    (ascii "rules", .object [
      (ascii "tracker_set_cookie", .object [
        (ascii "enabled", .bool false),
        (ascii "domains", .array [])]),
      (ascii "body_rewrite", .object [
        (ascii "enabled", .bool true),
        (ascii "tracker_script_patterns", .array [.string (ascii "gtm.js")]),
        (ascii "strip_tracking_pixels", pixels)])])]

theorem distinctKeys {pixels : Json} (distinct : pixels.DistinctKeys) :
    (value pixels).DistinctKeys := by
  have tracker : (Json.object [(ascii "enabled", .bool false),
      (ascii "domains", .array [])]).DistinctKeys :=
    .object (by decide +kernel) (by simpa using ⟨.bool _, .array (by simp)⟩)
  have body : (Json.object [(ascii "enabled", .bool true),
      (ascii "tracker_script_patterns", .array [.string (ascii "gtm.js")]),
      (ascii "strip_tracking_pixels", pixels)]).DistinctKeys := by
    refine .object (by simp only [List.map_cons, List.map_nil]; decide +kernel) ?_
    simpa using ⟨.bool _, .array (by simpa using .string _), distinct⟩
  refine .object (by simp only [List.map_cons, List.map_nil]; decide +kernel) ?_
  have rules : (Json.object [(ascii "tracker_set_cookie", _),
      (ascii "body_rewrite", _)]).DistinctKeys :=
    .object (by simp only [List.map_cons, List.map_nil]; decide +kernel)
      (by simpa using ⟨tracker, body⟩)
  simpa using ⟨.number _, .string _, rules⟩

theorem tidy : Tidy (value (.bool true)) := by
  refine .cons (.head _) trivial (.cons (.tail _ (.head _)) trivial
    (.cons (.tail _ (.tail _ (.head _))) (.cons (.head _) ?_
      (.cons (.tail _ (.tail _ (.head _))) ?_ .nil)) .nil))
  · exact .cons (.head _) trivial (.cons (.tail _ (.head _)) ⟨[], rfl, by simp⟩ .nil)
  · exact .cons (.head _) trivial (.cons (.tail _ (.head _)) ⟨[ascii "gtm.js"], rfl⟩
      (.cons (.tail _ (.tail _ (.tail _ (.tail _ (.head _))))) ⟨true, rfl⟩ .nil))

end StrictExample

/-- An accepted value is reflected in its configuration exactly if it is tidy. -/
theorem accepted_reflected_iff {selectorParses : Str → Bool} {value : Json} {cfg : PolicyConfig}
    (distinct : value.DistinctKeys)
    (accepts : PolicyConfig.fromJsonValue selectorParses value = .ok cfg) :
    Reflected cfg value ↔ Tidy value := by
  obtain ⟨members, rules, rfl, read⟩ := PolicyConfig.fromJsonValue_ok accepts
  obtain ⟨nodup, each⟩ := distinct.object_inv
  have found := fun key value => @Json.lookup_of_mem_of_nodup _ _ nodup key value
  refine objectOf_congr (.cons ⟨rfl, fun value mem => ?_⟩ (.cons ⟨rfl, fun value mem => ?_⟩
    (.cons ⟨rfl, fun value mem => ?_⟩ (.cons ⟨rfl, fun value mem => Iff.rfl⟩
    (.cons ⟨rfl, fun value mem => Iff.rfl⟩ .nil)))))
  · obtain ⟨version, numbered, same⟩ := read.version
    rw [found _ _ mem] at numbered
    exact iff_of_true ⟨version, Option.some.inj numbered, same⟩ trivial
  · obtain ⟨text, named, parsed⟩ := read.mode
    rw [found _ _ mem] at named
    exact iff_of_true ⟨text, Option.some.inj named, parsed⟩ trivial
  · have object := read.found
    rw [found _ _ mem] at object
    cases object
    have distinctRules := each _ mem
    obtain ⟨nodupRules, eachRule⟩ := distinctRules.object_inv
    have foundRule := fun key value => @Json.lookup_of_mem_of_nodup _ _ nodupRules key value
    refine objectOf_congr (.cons ⟨rfl, fun value mem => ?_⟩ (.cons ⟨rfl, fun value mem => ?_⟩
      (.cons ⟨rfl, fun value mem => ?_⟩ (.cons ⟨rfl, fun value mem => ?_⟩
      (.cons ⟨rfl, fun value mem => ?_⟩ .nil)))))
    · obtain ⟨inner, object, rule⟩ := parseTrackerSetCookie_ok read.trackerSetCookie
      rw [foundRule _ _ mem] at object
      cases object
      exact domainRule_iff (eachRule _ mem).object_inv.1 rule
    · rcases parseDnsBlock_ok read.dnsBlock with ⟨absent, -⟩ | ⟨inner, object, rule⟩
      · rw [foundRule _ _ mem] at absent
        cases absent
      · rw [foundRule _ _ mem] at object
        cases object
        exact domainRule_iff (eachRule _ mem).object_inv.1 rule
    · rcases parseBodyRewrite_ok read.bodyRewrite with ⟨absent, -⟩ | ⟨inner, object, rule⟩
      · rw [foundRule _ _ mem] at absent
        cases absent
      · rw [foundRule _ _ mem] at object
        cases object
        exact bodyRewrite_iff (eachRule _ mem).object_inv.1 rule
    · rcases parseConsentEnforcement_ok read.consentEnforcement with ⟨absent, -⟩ |
        ⟨inner, object, rule⟩
      · rw [foundRule _ _ mem] at absent
        cases absent
      · rw [foundRule _ _ mem] at object
        cases object
        exact consent_iff (eachRule _ mem) rule
    · rcases parseWebsocketBlocking_ok read.websocketBlocking with ⟨absent, -⟩ |
        ⟨inner, object, -, enabled⟩
      · rw [foundRule _ _ mem] at absent
        cases absent
      · rw [foundRule _ _ mem] at object
        cases object
        refine objectOf_congr (.cons ⟨rfl, fun value mem' => ?_⟩ .nil)
        have flag := Json.lookup_of_mem_of_nodup (eachRule _ mem).object_inv.1 mem'
        rw [enabled] at flag
        exact iff_of_true (Option.some.inj flag).symm trivial

theorem tidy_value_reflected :
    ∃ cfg, PolicyConfig.fromJsonValue (fun _ => true) (StrictExample.value (.bool true)) = .ok cfg ∧
      Reflected cfg (StrictExample.value (.bool true)) := by
  have accepts : PolicyConfig.fromJsonValue (fun _ => true) (StrictExample.value (.bool true)) =
      .ok _ := rfl
  exact ⟨_, accepts, (accepted_reflected_iff (StrictExample.distinctKeys (.bool _)) accepts).mpr
    StrictExample.tidy⟩

/-- A flag that is a text is taken for an absent one. -/
theorem mistyped_flag_ignored :
    ∃ cfg, (StrictExample.value (.string (ascii "true"))).DistinctKeys ∧
      PolicyConfig.fromJsonValue (fun _ => true)
        (StrictExample.value (.string (ascii "true"))) = .ok cfg ∧
      cfg.bodyRewrite.stripTrackingPixels = false ∧
      ¬Reflected cfg (StrictExample.value (.string (ascii "true"))) := by
  refine ⟨_, StrictExample.distinctKeys (.string _), rfl, rfl, fun reflected => ?_⟩
  have rules := reflected.meets (by decide +kernel) (.tail _ (.tail _ (.head _)))
    (.tail _ (.tail _ (.head _)))
  have body := rules.meets (by decide +kernel) (.tail _ (.head _)) (.tail _ (.tail _ (.head _)))
  have pixels := body.meets (by decide +kernel) (.tail _ (.tail _ (.head _)))
    (.tail _ (.tail _ (.tail _ (.tail _ (.head _)))))
  cases pixels

end PrivacyEngine
