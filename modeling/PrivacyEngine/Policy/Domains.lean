import PrivacyEngine.Policy.Engine
import PrivacyEngine.Store.HostKeys

/-!
# Domains as label suffixes

A host belongs to itself and to what follows any of its dots.  Both walks over the dots of a host
visit exactly these texts, the longest first and each once, so every plan sees a host only through
the domains it belongs to and through its normalized name.
-/

namespace PrivacyEngine

open Wire

/-- The host is the domain, or it ends with a dot and the domain. -/
def BelongsTo (host domain : Str) : Prop := host = domain ∨ 46 :: domain <:+ host

/-- The host and what follows each of its dots. -/
def labelSuffixes (host : Str) : List Str := host :: parentDomains host

theorem mem_parentDomains {host domain : Str} :
    domain ∈ parentDomains host ↔ 46 :: domain <:+ host := by
  induction host with
  | nil => simp [parentDomains]
  | cons b rest ih =>
      rw [List.suffix_cons_iff, ← ih, parentDomains]
      by_cases dot : b = 46
      · subst dot
        rw [if_pos rfl, List.mem_cons, List.cons_inj_right]
      · rw [if_neg dot, or_iff_right]
        intro same
        exact dot (List.cons.inj same).1.symm

theorem mem_labelSuffixes {host domain : Str} :
    domain ∈ labelSuffixes host ↔ BelongsTo host domain := by
  rw [labelSuffixes, List.mem_cons, mem_parentDomains, eq_comm]
  exact Iff.rfl

theorem parentDomains_length {host domain : Str} (parent : domain ∈ parentDomains host) :
    domain.length < host.length :=
  (mem_parentDomains.mp parent).length_le

/-- A walk comes to ever shorter domains. -/
theorem labelSuffixes_shrink (host : Str) :
    (labelSuffixes host).Pairwise fun domain parent => parent.length < domain.length := by
  refine List.pairwise_cons.mpr ⟨fun domain parent => parentDomains_length parent, ?_⟩
  induction host with
  | nil => exact .nil
  | cons b rest ih =>
      rw [parentDomains]
      split
      · exact List.pairwise_cons.mpr ⟨fun domain parent => parentDomains_length parent, ih⟩
      · exact ih

theorem BelongsTo.length_le {host domain : Str} (belongs : BelongsTo host domain) :
    domain.length ≤ host.length := by
  rcases belongs with rfl | suffix
  · exact le_rfl
  · exact (Nat.le_succ _).trans suffix.length_le

theorem domainInSetOrParent_iff_belongsTo {host : Str} (filled : host ≠ []) {domains : List Str} :
    domainInSetOrParent host domains = true ↔ ∃ domain ∈ domains, BelongsTo host domain := by
  rw [domainInSetOrParent_iff, and_iff_right filled]
  constructor
  · rintro ⟨domain, suffix, mem⟩
    exact ⟨domain, mem, mem_labelSuffixes.mp suffix⟩
  · rintro ⟨domain, mem, belongs⟩
    exact ⟨domain, mem_labelSuffixes.mpr belongs, mem⟩

theorem lookup_filterMap_sublist {α : Type} {map more : List (Str × α)}
    (grows : ∀ domain value, map.lookup domain = some value → more.lookup domain = some value)
    (domains : List Str) :
    (domains.filterMap (List.lookup · map)).Sublist (domains.filterMap (List.lookup · more)) := by
  induction domains with
  | nil => exact .slnil
  | cons domain domains ih =>
      rw [List.filterMap_cons, List.filterMap_cons]
      cases found : map.lookup domain with
      | none =>
          cases more.lookup domain with
          | none => exact ih
          | some value => exact ih.cons value
      | some value =>
          rw [grows domain value found]
          exact ih.cons_cons value

namespace PolicyEngine

variable {engine : PolicyEngine}

theorem filterListBlocks_iff {site : Str} :
    engine.filterListBlocks site = true ↔
      site ≠ [] ∧ (∃ domain ∈ engine.filterListRules.blockDomains, BelongsTo site domain) ∧
        ¬ ∃ domain ∈ engine.filterListRules.exceptionDomains, BelongsTo site domain := by
  rw [filterListBlocks, Bool.and_eq_true, Bool.not_eq_true', Bool.eq_false_iff]
  by_cases named : site = []
  · simp [named, domainInSetOrParent]
  · rw [Ne, domainInSetOrParent_iff_belongsTo named, domainInSetOrParent_iff_belongsTo named]
    simp only [ne_eq, named, not_false_eq_true, true_and]

theorem domainRemoveSelectors_eq (active : engine.cfg.mode ≠ .disabled) (host : Str) :
    (engine.planForBodyRewrite host).domainRemoveSelectors =
      (labelSuffixes (normalizeHost host)).filterMap
        (List.lookup · engine.filterListRules.domainCosmeticMap) := by
  simp only [planForBodyRewrite, bne_iff_ne.mpr active, if_true]
  rfl

/-- The scoped selectors of a host: those of the domains that the normalized host belongs to, each
once and the most specific domain first. -/
theorem exists_cosmetic_domains (active : engine.cfg.mode ≠ .disabled) (host : Str) :
    ∃ domains : List Str,
      domains.Pairwise (fun domain parent => parent.length < domain.length) ∧
      (∀ domain, domain ∈ domains ↔ BelongsTo (normalizeHost host) domain ∧
        (engine.filterListRules.domainCosmeticMap.lookup domain).isSome = true) ∧
      (engine.planForBodyRewrite host).domainRemoveSelectors.map some =
        domains.map (List.lookup · engine.filterListRules.domainCosmeticMap) := by
  refine ⟨(labelSuffixes (normalizeHost host)).filter
    fun domain => (engine.filterListRules.domainCosmeticMap.lookup domain).isSome, ?_, ?_, ?_⟩
  · exact (labelSuffixes_shrink _).sublist List.filter_sublist
  · intro domain
    rw [List.mem_filter, mem_labelSuffixes]
  · rw [domainRemoveSelectors_eq active]
    induction labelSuffixes (normalizeHost host) with
    | nil => rfl
    | cons domain domains ih =>
        rw [List.filterMap_cons, List.filter_cons]
        cases found : engine.filterListRules.domainCosmeticMap.lookup domain with
        | none => simpa using ih
        | some selectors => simpa [found] using ih

/-- The plans look at a host through its normalized name. -/
theorem plans_of_normalizeHost {host other : Str}
    (same : normalizeHost other = normalizeHost host) :
    engine.planForDnsQuery other = engine.planForDnsQuery host ∧
      engine.planForHost other = engine.planForHost host ∧
      engine.planForBodyRewrite other = engine.planForBodyRewrite host := by
  simp only [planForDnsQuery, planForHost, planForHostWithSourceIp, planForBodyRewrite, same,
    and_self]

end PolicyEngine

/-- Domains are matched as label suffixes: by membership in a set, by the walk over the scoped
selectors, monotonically in both, and for every spelling of a host alike. -/
theorem domains_match_label_suffixes (engine : PolicyEngine) :
    (∀ host domains, host ≠ [] →
      (domainInSetOrParent host domains = true ↔ ∃ domain ∈ domains, BelongsTo host domain)) ∧
    (∀ host, engine.cfg.mode ≠ .disabled → normalizeHost host ≠ [] →
      ∃ domains : List Str,
        domains.Pairwise (fun domain parent => parent.length < domain.length) ∧
        (∀ domain, domain ∈ domains ↔ BelongsTo (normalizeHost host) domain ∧
          (engine.filterListRules.domainCosmeticMap.lookup domain).isSome = true) ∧
        (engine.planForBodyRewrite host).domainRemoveSelectors.map some =
          domains.map (List.lookup · engine.filterListRules.domainCosmeticMap)) ∧
    (∀ host domains more, domains ⊆ more → domainInSetOrParent host domains = true →
      domainInSetOrParent host more = true) ∧
    (∀ host (more : FilterListRules), engine.cfg.mode ≠ .disabled →
      (∀ domain selectors,
        engine.filterListRules.domainCosmeticMap.lookup domain = some selectors →
        more.domainCosmeticMap.lookup domain = some selectors) →
      (engine.planForBodyRewrite host).domainRemoveSelectors.Sublist
        ((engine.replaceFilterListRules more).planForBodyRewrite host).domainRemoveSelectors) ∧
    ∀ host other, Spaceless host → SameName host other →
      engine.planForDnsQuery other = engine.planForDnsQuery host ∧
        engine.planForHost other = engine.planForHost host ∧
        engine.planForBodyRewrite other = engine.planForBodyRewrite host := by
  refine ⟨fun host domains filled => domainInSetOrParent_iff_belongsTo filled,
    fun host active _ => PolicyEngine.exists_cosmetic_domains active host,
    fun host domains more grows => domainInSetOrParent_mono grows, ?_, ?_⟩
  · intro host more active grows
    have active' : (engine.replaceFilterListRules more).cfg.mode ≠ .disabled := active
    rw [PolicyEngine.domainRemoveSelectors_eq active,
      PolicyEngine.domainRemoveSelectors_eq active']
    exact lookup_filterMap_sublist grows _
  · intro host other spaceless same
    exact PolicyEngine.plans_of_normalizeHost (same.normalizeHost_eq spaceless).1

end PrivacyEngine
