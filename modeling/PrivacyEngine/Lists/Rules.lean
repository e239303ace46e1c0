import Mathlib.Data.List.Destutter
import PrivacyEngine.Lists.Parser

/-!
# Filter lists under the policy engine

The rules of all lists are merged into sets and sorted tables, and the engine reads the sets.  A
line that blocks a domain adds hosts to what is blocked, an exception takes away hosts that only the
lists block, and any other line changes nothing.
-/

namespace PrivacyEngine

open Wire

structure FilterListAggregateStats where
  sourceCount : Nat := 0
  totalLines : Nat := 0
  domainBlocks : Nat := 0
  urlPatterns : Nat := 0
  cosmeticGlobal : Nat := 0
  cosmeticDomainScoped : Nat := 0
  exceptions : Nat := 0
  skippedUnsupported : Nat := 0
  skippedComments : Nat := 0
  deriving DecidableEq

namespace FilterList

/-! ## Aggregation -/

/-- Append a value to the entry of a key. -/
def pushEntry (key value : Str) : List (Str × List Str) → List (Str × List Str)
  | [] => [(key, [value])]
  | (name, values) :: rest =>
      if name = key then (name, values ++ [value]) :: rest
      else (name, values) :: pushEntry key value rest

def addRule (rules : FilterListRules) : ParsedRule → FilterListRules
  | .domainBlock domain => { rules with blockDomains := rules.blockDomains.insert domain }
  | .urlPattern domain path =>
      { rules with trackerScriptPatterns := rules.trackerScriptPatterns ++ [domain ++ path] }
  | .cosmeticGlobal selector =>
      { rules with cosmeticSelectors := rules.cosmeticSelectors ++ [selector] }
  | .cosmeticDomainScoped domain selector =>
      { rules with domainCosmeticMap := pushEntry domain selector rules.domainCosmeticMap }
  | .exception domain => { rules with exceptionDomains := rules.exceptionDomains.insert domain }

/-- Sorted, each text once. -/
def sortDedup (texts : List Str) : List Str :=
  (texts.mergeSort fun a b => decide (a ≤ b)).destutter (· ≠ ·)

def aggregateRules (allResults : List (List ParsedRule × ParseStats)) : FilterListRules :=
  let rules := allResults.foldl (fun rules result => result.1.foldl addRule rules) {}
  { rules with
    trackerScriptPatterns := sortDedup rules.trackerScriptPatterns
    cosmeticSelectors := sortDedup rules.cosmeticSelectors
    domainCosmeticMap := rules.domainCosmeticMap.map fun (key, values) => (key, sortDedup values) }

/-- The statistics that the aggregation stores beside the rules. -/
def aggregateStats (allResults : List (List ParsedRule × ParseStats)) : FilterListAggregateStats :=
  let addStats := fun (total : FilterListAggregateStats) (result : List ParsedRule × ParseStats) =>
    { total with
      totalLines := total.totalLines + result.2.totalLines
      domainBlocks := total.domainBlocks + result.2.domainBlocks
      urlPatterns := total.urlPatterns + result.2.urlPatterns
      cosmeticGlobal := total.cosmeticGlobal + result.2.cosmeticGlobal
      cosmeticDomainScoped := total.cosmeticDomainScoped + result.2.cosmeticDomainScoped
      exceptions := total.exceptions + result.2.exceptions
      skippedUnsupported := total.skippedUnsupported + result.2.skippedUnsupported
      skippedComments := total.skippedComments + result.2.skippedComments }
  allResults.foldl addStats { sourceCount := allResults.length }

theorem addRule_domains (rules : FilterListRules) (rule : ParsedRule) (domain : Str) :
    (domain ∈ (addRule rules rule).blockDomains ↔
        domain ∈ rules.blockDomains ∨ rule = .domainBlock domain) ∧
      (domain ∈ (addRule rules rule).exceptionDomains ↔
        domain ∈ rules.exceptionDomains ∨ rule = .exception domain) := by
  cases rule <;> simp [addRule, or_comm, eq_comm]

theorem foldl_addRule_domains (parsed : List ParsedRule) (rules : FilterListRules) (domain : Str) :
    (domain ∈ (parsed.foldl addRule rules).blockDomains ↔
        domain ∈ rules.blockDomains ∨ .domainBlock domain ∈ parsed) ∧
      (domain ∈ (parsed.foldl addRule rules).exceptionDomains ↔
        domain ∈ rules.exceptionDomains ∨ .exception domain ∈ parsed) := by
  induction parsed generalizing rules with
  | nil => simp
  | cons rule parsed ih =>
      obtain ⟨blocks, excepts⟩ := addRule_domains rules rule domain
      obtain ⟨later_blocks, later_excepts⟩ := ih (addRule rules rule)
      rw [List.foldl_cons, later_blocks, later_excepts, blocks, excepts, or_assoc, or_assoc,
        List.mem_cons, List.mem_cons, eq_comm, @eq_comm _ rule]
      exact ⟨Iff.rfl, Iff.rfl⟩

/-- The sets of the merged rules hold the domains of the parsed rules and no others. -/
theorem aggregateRules_domains (allResults : List (List ParsedRule × ParseStats)) (domain : Str) :
    (domain ∈ (aggregateRules allResults).blockDomains ↔
        .domainBlock domain ∈ allResults.flatMap Prod.fst) ∧
      (domain ∈ (aggregateRules allResults).exceptionDomains ↔
        .exception domain ∈ allResults.flatMap Prod.fst) := by
  have fold : allResults.foldl (fun rules result => result.1.foldl addRule rules) {} =
      (allResults.flatMap Prod.fst).foldl addRule {} := by
    rw [List.foldl_flatMap]
  obtain ⟨blocks, excepts⟩ := foldl_addRule_domains (allResults.flatMap Prod.fst) {} domain
  rw [← fold] at blocks excepts
  exact ⟨blocks.trans (by simp), excepts.trans (by simp)⟩

end FilterList

/-! ## Blocked hosts -/

namespace PolicyEngine

/-- The engine under the rules of some filter-list texts. -/
def withLists (engine : PolicyEngine) (isSelector : Str → Bool) (texts : List Str) : PolicyEngine :=
  engine.replaceFilterListRules
    (FilterList.aggregateRules (texts.map (FilterList.parseFilterList isSelector)))

/-- The manual DNS rule blocks a host. -/
def manuallyBlocks (engine : PolicyEngine) (host : Str) : Prop :=
  engine.cfg.dnsBlock.enabled = true ∧
    domainInSetOrParent (normalizeHost host) engine.cfg.dnsBlock.domains = true

/-- The manual cookie rule matches a host. -/
def manuallyTracks (engine : PolicyEngine) (host : Str) : Prop :=
  engine.cfg.trackerSetCookie.enabled = true ∧
    domainInSetOrParent (normalizeHost host) engine.cfg.trackerSetCookie.domains = true

/-- Consent enforcement lists a host as an analytics domain. -/
def listsAnalytics (engine : PolicyEngine) (host : Str) : Prop :=
  engine.cfg.consentEnforcement.enabled = true ∧
    domainInSetOrParent (normalizeHost host) engine.cfg.consentEnforcement.analyticsDomains = true

section Plans

variable {engine : PolicyEngine}

theorem shouldBlock_iff (active : engine.cfg.mode ≠ .disabled) (host : Str) :
    (engine.planForDnsQuery host).shouldBlock = true ↔
      engine.manuallyBlocks host ∨ engine.filterListBlocks (normalizeHost host) = true := by
  simp only [planForDnsQuery, if_neg active, Bool.or_eq_true, manuallyBlocks]
  by_cases enabled : engine.cfg.dnsBlock.enabled = true
  · rw [if_pos enabled, and_iff_right enabled]
  · rw [if_neg enabled]
    simp [enabled]

theorem trackerMatch_iff (active : engine.cfg.mode ≠ .disabled) (host : Str) :
    (engine.planForHost host).trackerMatch = true ↔
      engine.manuallyTracks host ∨ engine.filterListBlocks (normalizeHost host) = true ∨
        engine.listsAnalytics host := by
  have running : (engine.cfg.mode != .disabled) = true := bne_iff_ne.mpr active
  simp only [planForHost, planForHostWithSourceIp, running, Bool.and_true, Bool.true_and,
    Bool.or_eq_true, Bool.and_eq_true, or_assoc]
  rw [manuallyTracks, listsAnalytics]
  by_cases enabled : engine.cfg.trackerSetCookie.enabled = true
  · rw [if_pos enabled, and_iff_right enabled]
  · rw [if_neg enabled]
    simp [enabled]

end Plans

end PolicyEngine

namespace PolicyEngine

variable {engine engine' : PolicyEngine}

/-- More blocked domains and fewer exceptions block more hosts. -/
theorem filterListBlocks_mono
    (blocks : engine.filterListRules.blockDomains ⊆ engine'.filterListRules.blockDomains)
    (excepts : engine'.filterListRules.exceptionDomains ⊆ engine.filterListRules.exceptionDomains)
    {normalized : Str} (blocked : engine.filterListBlocks normalized = true) :
    engine'.filterListBlocks normalized = true := by
  simp only [filterListBlocks, Bool.and_eq_true, Bool.not_eq_true', ← Bool.not_eq_true] at *
  obtain ⟨listed, kept⟩ := blocked
  exact ⟨domainInSetOrParent_mono blocks listed,
    fun excepted => kept (domainInSetOrParent_mono excepts excepted)⟩

/-- Hosts that the lists of one engine block are blocked and matched by another with the same
configuration whose lists block more. -/
theorem plans_mono (active : engine.cfg.mode ≠ .disabled) (same : engine'.cfg = engine.cfg)
    (mono : ∀ normalized, engine.filterListBlocks normalized = true →
      engine'.filterListBlocks normalized = true) (host : Str) :
    ((engine.planForDnsQuery host).shouldBlock = true →
        (engine'.planForDnsQuery host).shouldBlock = true) ∧
      ((engine.planForHost host).trackerMatch = true →
        (engine'.planForHost host).trackerMatch = true) := by
  have active' : engine'.cfg.mode ≠ .disabled := by rwa [same]
  rw [shouldBlock_iff active, shouldBlock_iff active', trackerMatch_iff active,
    trackerMatch_iff active', manuallyBlocks, manuallyBlocks, manuallyTracks, manuallyTracks,
    listsAnalytics, listsAnalytics, same]
  exact ⟨Or.imp_right (mono _), Or.imp_right (Or.imp_left (mono _))⟩

end PolicyEngine

/-! ## One more line -/

namespace FilterList

/-- What ends a line before the rest of a text: a line end, or the end of the text. -/
def LineEnds (stop after : Str) : Prop := stop = [10] ∨ stop = crlf ∨ stop = [] ∧ after = []

/-- A text and the same text with a line more: as its first line, behind a line feed, or behind an
unfinished last line. -/
inductive WithLine (line : Str) : Str → Str → Prop where
  | first (after : Str) {stop : Str} :
      LineEnds stop after → WithLine line after (line ++ stop ++ after)
  | between (before after : Str) {stop : Str} : LineEnds stop after →
      WithLine line (before ++ 10 :: after) (before ++ 10 :: (line ++ stop ++ after))
  | appended (before : Str) {eol stop : Str} : eol = [10] ∨ eol = crlf → LineEnds stop [] →
      WithLine line before (before ++ eol ++ (line ++ stop))

/-- Texts with a line more, in one of them or in a new one. -/
inductive ListsWithLine (line : Str) : List Str → List Str → Prop where
  | text (front back : List Str) {text text' : Str} : WithLine line text text' →
      ListsWithLine line (front ++ text :: back) (front ++ text' :: back)
  | list (front back : List Str) {text : Str} : WithLine line [] text →
      ListsWithLine line (front ++ back) (front ++ text :: back)

section WithLine

variable {isSelector : Str → Bool} {line : Str}

theorem parseLine_concat_cr (line : Str) :
    parseLine isSelector (line ++ [13]) = parseLine isSelector line := by
  rw [← parseLine_trim, trim_concat_cr, parseLine_trim]

/-- A carriage return at the end of a text says nothing. -/
theorem parseFilterList_concat_cr (text : Str) :
    (parseFilterList isSelector (text ++ [13])).1 = (parseFilterList isSelector text).1 := by
  have unbroken : ∀ {last : Str}, 10 ∉ last →
      (parseFilterList isSelector (last ++ [13])).1 = (parseFilterList isSelector last).1 := by
    intro last no_lf
    have no_lf' : 10 ∉ last ++ [13] := by simpa using no_lf
    rw [parseFilterList_line no_lf', parseFilterList_line no_lf, parseLine_concat_cr]
  cases cut : rsplitOnce 10 text with
  | none => exact unbroken (rsplitOnce_eq_none_iff.mp cut)
  | some parts =>
      obtain ⟨front, last⟩ := parts
      obtain ⟨rfl, no_lf⟩ := rsplitOnce_eq_some_iff.mp cut
      rw [List.append_assoc, List.cons_append, parseFilterList_append, parseFilterList_append,
        unbroken no_lf]

/-- The first line gives its rule, whatever ends it. -/
theorem parseFilterList_first (no_lf : 10 ∉ line) {stop after : Str} (ends : LineEnds stop after) :
    (parseFilterList isSelector (line ++ stop ++ after)).1 =
      (parseLine isSelector line).toList ++ (parseFilterList isSelector after).1 := by
  rcases ends with rfl | rfl | ⟨rfl, rfl⟩
  · rw [List.append_assoc, List.singleton_append, parseFilterList_append,
      parseFilterList_line no_lf]
  · have cut : line ++ crlf ++ after = (line ++ [13]) ++ 10 :: after := by simp [crlf]
    rw [cut, parseFilterList_append, parseFilterList_concat_cr, parseFilterList_line no_lf]
  · rw [List.append_nil, List.append_nil, parseFilterList_line no_lf]
    exact (List.append_nil _).symm

theorem mem_rules_withLine (no_lf : 10 ∉ line) {text text' : Str} (adds : WithLine line text text')
    (rule : ParsedRule) :
    rule ∈ (parseFilterList isSelector text').1 ↔
      rule ∈ (parseFilterList isSelector text).1 ∨ parseLine isSelector line = some rule := by
  rw [← Option.mem_toList.trans Option.mem_def]
  cases adds with
  | first after ends => rw [parseFilterList_first no_lf ends, List.mem_append, or_comm]
  | between before after ends =>
      rw [parseFilterList_append, parseFilterList_append, parseFilterList_first no_lf ends]
      simp only [List.mem_append]
      tauto
  | appended before eol ends =>
      rename_i eol' stop
      have last := @parseFilterList_first isSelector _ no_lf stop [] ends
      rw [List.append_nil] at last
      have cut : (parseFilterList isSelector (text ++ eol' ++ (line ++ stop))).1 =
          (parseFilterList isSelector text).1 ++ (parseFilterList isSelector (line ++ stop)).1 := by
        rcases eol with rfl | rfl
        · rw [List.append_assoc, List.singleton_append, parseFilterList_append]
        · have split : text ++ crlf ++ (line ++ stop) =
              (text ++ [13]) ++ 10 :: (line ++ stop) := by simp [crlf]
          rw [split, parseFilterList_append, parseFilterList_concat_cr]
      rw [cut, last, List.mem_append, List.mem_append]
      exact or_congr_right (or_iff_left (List.not_mem_nil))

/-- The rules of texts with a line more are those of the texts and the rule of the line. -/
theorem mem_rules_listsWithLine (no_lf : 10 ∉ line) {texts texts' : List Str}
    (adds : ListsWithLine line texts texts') (rule : ParsedRule) :
    rule ∈ texts'.flatMap (fun text => (parseFilterList isSelector text).1) ↔
      rule ∈ texts.flatMap (fun text => (parseFilterList isSelector text).1) ∨
        parseLine isSelector line = some rule := by
  cases adds with
  | text front back adds =>
      simp only [List.flatMap_append, List.flatMap_cons, List.mem_append,
        mem_rules_withLine no_lf adds]
      tauto
  | list front back adds =>
      have nothing : rule ∉ (parseFilterList isSelector []).1 := List.not_mem_nil
      simp only [List.flatMap_append, List.flatMap_cons, List.mem_append,
        mem_rules_withLine no_lf adds]
      tauto

end WithLine

end FilterList

namespace PolicyEngine

open FilterList

section WithLine

variable {engine : PolicyEngine} {isSelector : Str → Bool} {line : Str} {texts texts' : List Str}

theorem withLists_domains (domain : Str) :
    (domain ∈ (engine.withLists isSelector texts).filterListRules.blockDomains ↔
        .domainBlock domain ∈ texts.flatMap fun text => (parseFilterList isSelector text).1) ∧
      (domain ∈ (engine.withLists isSelector texts).filterListRules.exceptionDomains ↔
        .exception domain ∈ texts.flatMap fun text => (parseFilterList isSelector text).1) := by
  have domains := aggregateRules_domains (texts.map (parseFilterList isSelector)) domain
  rw [List.flatMap_map] at domains
  exact domains

/-- The blocked domains of texts with a line more. -/
theorem blockDomains_withLine (no_lf : 10 ∉ line) (adds : ListsWithLine line texts texts')
    (domain : Str) :
    domain ∈ (engine.withLists isSelector texts').filterListRules.blockDomains ↔
      domain ∈ (engine.withLists isSelector texts).filterListRules.blockDomains ∨
        parseLine isSelector line = some (.domainBlock domain) := by
  rw [(withLists_domains domain).1, (withLists_domains domain).1,
    mem_rules_listsWithLine no_lf adds]

theorem exceptionDomains_withLine (no_lf : 10 ∉ line) (adds : ListsWithLine line texts texts')
    (domain : Str) :
    domain ∈ (engine.withLists isSelector texts').filterListRules.exceptionDomains ↔
      domain ∈ (engine.withLists isSelector texts).filterListRules.exceptionDomains ∨
        parseLine isSelector line = some (.exception domain) := by
  rw [(withLists_domains domain).2, (withLists_domains domain).2,
    mem_rules_listsWithLine no_lf adds]

/-- A line that is no exception takes no host away from the lists. -/
theorem filterListBlocks_of_no_exception (no_lf : 10 ∉ line)
    (adds : ListsWithLine line texts texts')
    (other : ∀ domain, parseLine isSelector line ≠ some (.exception domain)) {normalized : Str} :
    (engine.withLists isSelector texts).filterListBlocks normalized = true →
      (engine.withLists isSelector texts').filterListBlocks normalized = true := by
  apply filterListBlocks_mono
  · exact fun domain mem => (blockDomains_withLine no_lf adds domain).mpr (.inl mem)
  · intro domain mem
    exact ((exceptionDomains_withLine no_lf adds domain).mp mem).resolve_right (other domain)

/-- A line that blocks no domain adds no host to the lists. -/
theorem filterListBlocks_of_no_block (no_lf : 10 ∉ line) (adds : ListsWithLine line texts texts')
    (other : ∀ domain, parseLine isSelector line ≠ some (.domainBlock domain)) {normalized : Str} :
    (engine.withLists isSelector texts').filterListBlocks normalized = true →
      (engine.withLists isSelector texts).filterListBlocks normalized = true := by
  apply filterListBlocks_mono
  · intro domain mem
    exact ((blockDomains_withLine no_lf adds domain).mp mem).resolve_right (other domain)
  · exact fun domain mem => (exceptionDomains_withLine no_lf adds domain).mpr (.inl mem)

/-- A line that blocks a domain only adds hosts, an exception only takes hosts away and none that a
manual rule matches, any other line changes nothing, and what the lists block is matched as well. -/
theorem line_acts_monotonically (active : engine.cfg.mode ≠ .disabled) (no_lf : 10 ∉ line)
    (adds : ListsWithLine line texts texts') (host : Str) :
    (∀ domain, parseLine isSelector line = some (.domainBlock domain) →
      (((engine.withLists isSelector texts).planForDnsQuery host).shouldBlock = true →
        ((engine.withLists isSelector texts').planForDnsQuery host).shouldBlock = true) ∧
      (((engine.withLists isSelector texts).planForHost host).trackerMatch = true →
        ((engine.withLists isSelector texts').planForHost host).trackerMatch = true)) ∧
    (∀ domain, parseLine isSelector line = some (.exception domain) →
      (((engine.withLists isSelector texts').planForDnsQuery host).shouldBlock = true →
        ((engine.withLists isSelector texts).planForDnsQuery host).shouldBlock = true) ∧
      (((engine.withLists isSelector texts').planForHost host).trackerMatch = true →
        ((engine.withLists isSelector texts).planForHost host).trackerMatch = true) ∧
      (engine.manuallyBlocks host →
        ((engine.withLists isSelector texts').planForDnsQuery host).shouldBlock = true) ∧
      (engine.manuallyTracks host →
        ((engine.withLists isSelector texts').planForHost host).trackerMatch = true)) ∧
    ((∀ domain, parseLine isSelector line ≠ some (.domainBlock domain) ∧
        parseLine isSelector line ≠ some (.exception domain)) →
      ((engine.withLists isSelector texts').planForDnsQuery host).shouldBlock =
        ((engine.withLists isSelector texts).planForDnsQuery host).shouldBlock ∧
      ((engine.withLists isSelector texts').planForHost host).trackerMatch =
        ((engine.withLists isSelector texts).planForHost host).trackerMatch) ∧
    ((engine.withLists isSelector texts).filterListBlocks (normalizeHost host) = true →
      ((engine.withLists isSelector texts).planForDnsQuery host).shouldBlock = true ∧
      ((engine.withLists isSelector texts).planForHost host).trackerMatch = true) := by
  have active₁ : (engine.withLists isSelector texts).cfg.mode ≠ .disabled := active
  have active₂ : (engine.withLists isSelector texts').cfg.mode ≠ .disabled := active
  have same : (engine.withLists isSelector texts').cfg = (engine.withLists isSelector texts).cfg :=
    rfl
  refine ⟨?_, ?_, ?_, ?_⟩
  · intro domain blocks
    have other : ∀ domain, parseLine isSelector line ≠ some (.exception domain) := by
      simp [blocks]
    exact plans_mono active₁ same (fun _ => filterListBlocks_of_no_exception no_lf adds other) host
  · intro domain excepts
    have other : ∀ domain, parseLine isSelector line ≠ some (.domainBlock domain) := by
      simp [excepts]
    have fewer := plans_mono active₂ same.symm
      (fun _ => filterListBlocks_of_no_block no_lf adds other) host
    exact ⟨fewer.1, fewer.2, fun manual => (shouldBlock_iff active₂ host).mpr (.inl manual),
      fun manual => (trackerMatch_iff active₂ host).mpr (.inl manual)⟩
  · intro other
    have more := plans_mono active₁ same (fun _ => filterListBlocks_of_no_exception no_lf adds
      fun domain => (other domain).2) host
    have fewer := plans_mono active₂ same.symm (fun _ => filterListBlocks_of_no_block no_lf adds
      fun domain => (other domain).1) host
    exact ⟨Bool.eq_iff_iff.mpr ⟨fewer.1, more.1⟩, Bool.eq_iff_iff.mpr ⟨fewer.2, more.2⟩⟩
  · intro blocked
    exact ⟨(shouldBlock_iff active₁ host).mpr (.inr blocked),
      (trackerMatch_iff active₁ host).mpr (.inr (.inl blocked))⟩

end WithLine

/-- A list that blocks one domain. -/
def sampleList : Str := ascii "! sample\r\n||ads.example^$script"

/-- The same list with a second blocking line. -/
def longerSampleList : Str := sampleList ++ crlf ++ (ascii "||cdn.example" ++ [10])

/-- A host blocked by the first line is still blocked when the list gets a second one. -/
theorem sampleList_keeps_blocking :
    (((new .enforce).withLists (fun _ => true) [longerSampleList]).planForDnsQuery
      (ascii "pixel.ads.example")).shouldBlock = true := by
  have blocks : FilterList.parseLine (fun _ => true) (ascii "||cdn.example") =
      some (.domainBlock (ascii "cdn.example")) := by decide +kernel
  have before : (((new .enforce).withLists (fun _ => true) [sampleList]).planForDnsQuery
      (ascii "pixel.ads.example")).shouldBlock = true := by decide +kernel
  have adds : FilterList.ListsWithLine (ascii "||cdn.example") [sampleList] [longerSampleList] :=
    .text [] [] (.appended sampleList (.inr rfl) (.inl rfl))
  exact ((line_acts_monotonically (by decide) (by decide +kernel) adds _).1 _ blocks).1 before

end PolicyEngine
end PrivacyEngine
