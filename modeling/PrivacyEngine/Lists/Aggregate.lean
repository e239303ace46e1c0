import Mathlib.Algebra.GroupWithZero.Nat
import Mathlib.Data.List.Sort
import PrivacyEngine.Lists.Rules

/-!
# Aggregation

What the merged rules of all sources hold: sets and tables of exactly what the parsed rules say, the
tables strictly increasing.  A strictly increasing list is determined by its members, so neither the
order of sources and rules nor repeated rules leave a trace.
-/

namespace PrivacyEngine

open Wire

namespace FilterList

/-! ## Strictly increasing lists -/

/-- The strictly increasing list of the texts with a property. -/
def Increasing (texts : List Str) (members : Str → Prop) : Prop :=
  texts.Pairwise (· < ·) ∧ ∀ text, text ∈ texts ↔ members text

theorem Increasing.unique {texts texts' : List Str} {members : Str → Prop}
    (increasing : Increasing texts members) (increasing' : Increasing texts' members) :
    texts = texts' := by
  have irrefl : Std.Irrefl (α := Str) (· < ·) := ⟨List.lt_irrefl⟩
  have antisymm : Std.Antisymm (α := Str) (· < ·) :=
    ⟨fun a b below above => absurd (List.lt_trans below above) (List.lt_irrefl a)⟩
  exact increasing.1.eq_of_mem_iff increasing'.1 fun text =>
    (increasing.2 text).trans (increasing'.2 text).symm

theorem increasing_sortDedup (texts : List Str) : Increasing (sortDedup texts) (· ∈ texts) := by
  have sorted : (texts.mergeSort fun a b => decide (a ≤ b)).Pairwise (· ≤ ·) := by
    have trans : ∀ a b c : Str, decide (a ≤ b) = true → decide (b ≤ c) = true →
        decide (a ≤ c) = true := by
      intro a b c below above
      rw [decide_eq_true_eq] at below above ⊢
      exact List.le_trans below above
    have total : ∀ a b : Str, (decide (a ≤ b) || decide (b ≤ a)) = true := by
      intro a b
      rw [Bool.or_eq_true, decide_eq_true_eq, decide_eq_true_eq]
      exact List.le_total a b
    simpa using List.pairwise_mergeSort trans total texts
  rw [sortDedup, sorted.destutter_eq_dedup]
  refine ⟨?_, fun text => by rw [List.mem_dedup, List.mem_mergeSort]⟩
  have ordered := (sorted.sublist (List.dedup_sublist _)).and (List.nodup_dedup _)
  refine ordered.imp ?_
  rintro a b ⟨below, distinct⟩
  by_contra not_below
  exact distinct (List.le_antisymm below not_below)

theorem Increasing.congr {texts : List Str} {members members' : Str → Prop}
    (increasing : Increasing texts members) (same : ∀ text, members text ↔ members' text) :
    Increasing texts members' :=
  ⟨increasing.1, fun text => (increasing.2 text).trans (same text)⟩

/-! ## Tables -/

theorem pushEntry_lookup (key value : Str) (map : List (Str × List Str)) (other : Str) :
    (pushEntry key value map).lookup other =
      if other = key then some ((map.lookup key).getD [] ++ [value]) else map.lookup other := by
  induction map with
  | nil =>
      rw [pushEntry, List.lookup_cons]
      split
      · rename_i same
        rw [if_pos (by simpa using same)]
        rfl
      · rename_i differ
        rw [if_neg (by simpa using differ)]
  | cons entry map ih =>
      obtain ⟨name, values⟩ := entry
      rw [pushEntry]
      by_cases named : name = key
      · subst named
        rw [if_pos rfl, List.lookup_cons, List.lookup_cons_self]
        by_cases same : other = name
        · rw [if_pos same, same, beq_self_eq_true]
          rfl
        · rw [if_neg same, List.lookup_cons, beq_eq_false_iff_ne.mpr same]
      · rw [if_neg named, List.lookup_cons, List.lookup_cons, List.lookup_cons,
          beq_eq_false_iff_ne.mpr (Ne.symm named), ih]
        by_cases same : other = name
        · subst same
          simp [named]
        · rw [beq_eq_false_iff_ne.mpr same]

theorem mem_pushEntry_keys (key value : Str) (map : List (Str × List Str)) (name : Str) :
    name ∈ (pushEntry key value map).map (·.1) ↔ name = key ∨ name ∈ map.map (·.1) := by
  induction map with
  | nil => simp [pushEntry]
  | cons entry map ih =>
      obtain ⟨first, values⟩ := entry
      rw [pushEntry]
      split
      · rename_i named
        subst named
        simp
      · rw [List.map_cons, List.mem_cons, ih, List.map_cons, List.mem_cons, or_left_comm]

theorem pushEntry_nodup (key value : Str) {map : List (Str × List Str)}
    (distinct : (map.map (·.1)).Nodup) : ((pushEntry key value map).map (·.1)).Nodup := by
  induction map with
  | nil => simp [pushEntry]
  | cons entry map ih =>
      obtain ⟨first, values⟩ := entry
      obtain ⟨fresh, distinct⟩ := List.nodup_cons.mp distinct
      rw [pushEntry]
      split
      · exact List.nodup_cons.mpr ⟨fresh, distinct⟩
      · rename_i other
        refine List.nodup_cons.mpr ⟨fun mem => ?_, ih distinct⟩
        exact ((mem_pushEntry_keys key value map first).mp mem).elim other fresh

theorem lookup_map_values {α β : Type} (f : α → β) (map : List (Str × α)) (key : Str) :
    (map.map fun entry => (entry.1, f entry.2)).lookup key = (map.lookup key).map f := by
  induction map with
  | nil => rfl
  | cons entry map ih =>
      rw [List.map_cons, List.lookup_cons, List.lookup_cons, ih]
      cases key == entry.1 <;> rfl

/-! ## What the rules of all sources say -/

/-- The script pattern of a rule. -/
def patternOf : ParsedRule → Option Str
  | .urlPattern domain path => some (domain ++ path)
  | _ => none

/-- The global selector of a rule. -/
def globalSelectorOf : ParsedRule → Option Str
  | .cosmeticGlobal selector => some selector
  | _ => none

/-- The selector that a rule has for a domain. -/
def scopedSelectorOf (domain : Str) : ParsedRule → Option Str
  | .cosmeticDomainScoped scope selector => if scope = domain then some selector else none
  | _ => none

/-- The tables after some more rules. -/
theorem foldl_addRule_tables (parsed : List ParsedRule) (rules : FilterListRules) :
    (parsed.foldl addRule rules).trackerScriptPatterns =
        rules.trackerScriptPatterns ++ parsed.filterMap patternOf ∧
      (parsed.foldl addRule rules).cosmeticSelectors =
        rules.cosmeticSelectors ++ parsed.filterMap globalSelectorOf := by
  induction parsed generalizing rules with
  | nil => simp
  | cons rule parsed ih =>
      obtain ⟨patterns, selectors⟩ := ih (addRule rules rule)
      rw [List.foldl_cons, patterns, selectors]
      cases rule <;> simp [addRule, List.filterMap_cons, patternOf, globalSelectorOf]

/-- The entry of a domain after some more rules. -/
theorem foldl_addRule_entry (parsed : List ParsedRule) (rules : FilterListRules) (domain : Str) :
    ((parsed.foldl addRule rules).domainCosmeticMap.lookup domain).getD [] =
        (rules.domainCosmeticMap.lookup domain).getD [] ++
          parsed.filterMap (scopedSelectorOf domain) ∧
      (((parsed.foldl addRule rules).domainCosmeticMap.lookup domain).isSome = true ↔
        (rules.domainCosmeticMap.lookup domain).isSome = true ∨
          parsed.filterMap (scopedSelectorOf domain) ≠ []) := by
  induction parsed generalizing rules with
  | nil => simp
  | cons rule parsed ih =>
      obtain ⟨entry, present⟩ := ih (addRule rules rule)
      rw [List.foldl_cons, entry, present]
      cases rule with
      | cosmeticDomainScoped scope selector =>
          simp only [addRule, pushEntry_lookup, List.filterMap_cons, scopedSelectorOf]
          by_cases same : domain = scope
          · subst same
            simp
          · rw [if_neg same, if_neg (Ne.symm same)]
            exact ⟨rfl, Iff.rfl⟩
      | domainBlock _ | urlPattern _ _ | cosmeticGlobal _ | exception _ =>
          exact ⟨rfl, Iff.rfl⟩

theorem foldl_addRule_nodup (parsed : List ParsedRule) {rules : FilterListRules}
    (distinct : (rules.domainCosmeticMap.map (·.1)).Nodup) :
    ((parsed.foldl addRule rules).domainCosmeticMap.map (·.1)).Nodup := by
  induction parsed generalizing rules with
  | nil => exact distinct
  | cons rule parsed ih =>
      refine ih ?_
      cases rule with
      | cosmeticDomainScoped scope selector => exact pushEntry_nodup scope selector distinct
      | domainBlock _ | urlPattern _ _ | cosmeticGlobal _ | exception _ => exact distinct

/-- The merged rules are those of one source with all the rules. -/
theorem foldl_sources (allResults : List (List ParsedRule × ParseStats)) (rules : FilterListRules) :
    allResults.foldl (fun rules result => result.1.foldl addRule rules) rules =
      (allResults.flatMap Prod.fst).foldl addRule rules := by
  rw [List.foldl_flatMap]

theorem mem_filterMap_patternOf {parsed : List ParsedRule} {text : Str} :
    text ∈ parsed.filterMap patternOf ↔
      ∃ domain path, .urlPattern domain path ∈ parsed ∧ text = domain ++ path := by
  rw [List.mem_filterMap]
  constructor
  · rintro ⟨rule, mem, gives⟩
    cases rule with
    | urlPattern domain path => exact ⟨domain, path, mem, (Option.some.inj gives).symm⟩
    | domainBlock _ | cosmeticGlobal _ | cosmeticDomainScoped _ _ | exception _ => cases gives
  · rintro ⟨domain, path, mem, rfl⟩
    exact ⟨_, mem, rfl⟩

theorem mem_filterMap_globalSelectorOf {parsed : List ParsedRule} {text : Str} :
    text ∈ parsed.filterMap globalSelectorOf ↔ .cosmeticGlobal text ∈ parsed := by
  rw [List.mem_filterMap]
  constructor
  · rintro ⟨rule, mem, gives⟩
    cases rule with
    | cosmeticGlobal selector => exact Option.some.inj gives ▸ mem
    | domainBlock _ | urlPattern _ _ | cosmeticDomainScoped _ _ | exception _ => cases gives
  · exact fun mem => ⟨_, mem, rfl⟩

theorem mem_filterMap_scopedSelectorOf {parsed : List ParsedRule} {domain text : Str} :
    text ∈ parsed.filterMap (scopedSelectorOf domain) ↔
      .cosmeticDomainScoped domain text ∈ parsed := by
  rw [List.mem_filterMap]
  constructor
  · rintro ⟨rule, mem, gives⟩
    cases rule with
    | cosmeticDomainScoped scope selector =>
        obtain ⟨rfl, rfl⟩ : scope = domain ∧ selector = text := by
          simpa [scopedSelectorOf] using gives
        exact mem
    | domainBlock _ | urlPattern _ _ | cosmeticGlobal _ | exception _ => cases gives
  · exact fun mem => ⟨_, mem, by simp [scopedSelectorOf]⟩

section Aggregated

variable (allResults : List (List ParsedRule × ParseStats))

theorem aggregateRules_patterns :
    Increasing (aggregateRules allResults).trackerScriptPatterns fun text =>
      ∃ domain path, .urlPattern domain path ∈ allResults.flatMap Prod.fst ∧
        text = domain ++ path := by
  refine (increasing_sortDedup _).congr fun text => ?_
  rw [foldl_sources, (foldl_addRule_tables _ _).1]
  exact mem_filterMap_patternOf

theorem aggregateRules_selectors :
    Increasing (aggregateRules allResults).cosmeticSelectors
      (.cosmeticGlobal · ∈ allResults.flatMap Prod.fst) := by
  refine (increasing_sortDedup _).congr fun text => ?_
  rw [foldl_sources, (foldl_addRule_tables _ _).2]
  exact mem_filterMap_globalSelectorOf

theorem aggregateRules_lookup (domain : Str) :
    (aggregateRules allResults).domainCosmeticMap.lookup domain =
      (((allResults.flatMap Prod.fst).foldl addRule {}).domainCosmeticMap.lookup domain).map
        sortDedup := by
  rw [← foldl_sources]
  exact lookup_map_values sortDedup _ domain

/-- A domain has an entry if some rule is scoped to it. -/
theorem aggregateRules_scoped (domain : Str) :
    ((aggregateRules allResults).domainCosmeticMap.lookup domain).isSome = true ↔
      ∃ selector, .cosmeticDomainScoped domain selector ∈ allResults.flatMap Prod.fst := by
  rw [aggregateRules_lookup, Option.isSome_map, (foldl_addRule_entry _ _ _).2]
  constructor
  · rintro (nothing | filled)
    · cases nothing
    · obtain ⟨selector, mem⟩ := List.exists_mem_of_ne_nil _ filled
      exact ⟨selector, mem_filterMap_scopedSelectorOf.mp mem⟩
  · rintro ⟨selector, mem⟩
    exact .inr (List.ne_nil_of_mem (mem_filterMap_scopedSelectorOf.mpr mem))

theorem aggregateRules_entry {domain : Str} {selectors : List Str}
    (found : (aggregateRules allResults).domainCosmeticMap.lookup domain = some selectors) :
    Increasing selectors (.cosmeticDomainScoped domain · ∈ allResults.flatMap Prod.fst) := by
  rw [aggregateRules_lookup] at found
  obtain ⟨texts, entry, rfl⟩ := Option.map_eq_some_iff.mp found
  refine (increasing_sortDedup texts).congr fun text => ?_
  have texts_eq := (foldl_addRule_entry (allResults.flatMap Prod.fst) {} domain).1
  rw [entry] at texts_eq
  rw [← mem_filterMap_scopedSelectorOf]
  exact iff_of_eq (congrArg (text ∈ ·) texts_eq)

theorem aggregateRules_nodup :
    ((aggregateRules allResults).domainCosmeticMap.map (·.1)).Nodup := by
  have distinct := @foldl_addRule_nodup (allResults.flatMap Prod.fst) {} List.nodup_nil
  rw [← foldl_sources] at distinct
  rw [aggregateRules]
  dsimp only
  rw [List.map_map]
  exact distinct

end Aggregated

theorem foldl_stats (allResults : List (List ParsedRule × ParseStats))
    (total : FilterListAggregateStats) :
    allResults.foldl (fun total result =>
      { total with
        totalLines := total.totalLines + result.2.totalLines
        domainBlocks := total.domainBlocks + result.2.domainBlocks
        urlPatterns := total.urlPatterns + result.2.urlPatterns
        cosmeticGlobal := total.cosmeticGlobal + result.2.cosmeticGlobal
        cosmeticDomainScoped := total.cosmeticDomainScoped + result.2.cosmeticDomainScoped
        exceptions := total.exceptions + result.2.exceptions
        skippedUnsupported := total.skippedUnsupported + result.2.skippedUnsupported
        skippedComments := total.skippedComments + result.2.skippedComments }) total =
      { sourceCount := total.sourceCount
        totalLines := total.totalLines + (allResults.map (·.2.totalLines)).sum
        domainBlocks := total.domainBlocks + (allResults.map (·.2.domainBlocks)).sum
        urlPatterns := total.urlPatterns + (allResults.map (·.2.urlPatterns)).sum
        cosmeticGlobal := total.cosmeticGlobal + (allResults.map (·.2.cosmeticGlobal)).sum
        cosmeticDomainScoped :=
          total.cosmeticDomainScoped + (allResults.map (·.2.cosmeticDomainScoped)).sum
        exceptions := total.exceptions + (allResults.map (·.2.exceptions)).sum
        skippedUnsupported :=
          total.skippedUnsupported + (allResults.map (·.2.skippedUnsupported)).sum
        skippedComments :=
          total.skippedComments + (allResults.map (·.2.skippedComments)).sum } := by
  induction allResults generalizing total with
  | nil => rfl
  | cons result allResults ih =>
      rw [List.foldl_cons, ih]
      simp only [List.map_cons, List.sum_cons, Nat.add_assoc]

/-- The statistics are the sums over the sources. -/
theorem aggregateStats_eq (allResults : List (List ParsedRule × ParseStats)) :
    aggregateStats allResults =
      { sourceCount := allResults.length
        totalLines := (allResults.map (·.2.totalLines)).sum
        domainBlocks := (allResults.map (·.2.domainBlocks)).sum
        urlPatterns := (allResults.map (·.2.urlPatterns)).sum
        cosmeticGlobal := (allResults.map (·.2.cosmeticGlobal)).sum
        cosmeticDomainScoped := (allResults.map (·.2.cosmeticDomainScoped)).sum
        exceptions := (allResults.map (·.2.exceptions)).sum
        skippedUnsupported := (allResults.map (·.2.skippedUnsupported)).sum
        skippedComments := (allResults.map (·.2.skippedComments)).sum } := by
  unfold aggregateStats
  dsimp only
  rw [foldl_stats]
  simp only [Nat.zero_add]

/-- The same sets and tables. -/
structure SameRules (rules other : FilterListRules) : Prop where
  blockDomains : ∀ domain, domain ∈ rules.blockDomains ↔ domain ∈ other.blockDomains
  exceptionDomains : ∀ domain, domain ∈ rules.exceptionDomains ↔ domain ∈ other.exceptionDomains
  trackerScriptPatterns : rules.trackerScriptPatterns = other.trackerScriptPatterns
  cosmeticSelectors : rules.cosmeticSelectors = other.cosmeticSelectors
  domainCosmeticMap : ∀ domain,
    rules.domainCosmeticMap.lookup domain = other.domainCosmeticMap.lookup domain

/-- Sources that say the same merge to the same rules. -/
theorem sameRules_of_mem_iff {allResults allResults' : List (List ParsedRule × ParseStats)}
    (same : ∀ rule, rule ∈ allResults'.flatMap Prod.fst ↔ rule ∈ allResults.flatMap Prod.fst) :
    SameRules (aggregateRules allResults') (aggregateRules allResults) where
  blockDomains domain := by
    rw [(aggregateRules_domains _ domain).1, (aggregateRules_domains _ domain).1, same]
  exceptionDomains domain := by
    rw [(aggregateRules_domains _ domain).2, (aggregateRules_domains _ domain).2, same]
  trackerScriptPatterns := by
    refine (aggregateRules_patterns allResults').unique
      ((aggregateRules_patterns allResults).congr fun text => ?_)
    simp only [same]
  cosmeticSelectors := by
    refine (aggregateRules_selectors allResults').unique
      ((aggregateRules_selectors allResults).congr fun text => ?_)
    rw [same]
  domainCosmeticMap domain := by
    have scoped' := aggregateRules_scoped allResults' domain
    simp only [same] at scoped'
    rw [← aggregateRules_scoped allResults domain] at scoped'
    cases found : (aggregateRules allResults).domainCosmeticMap.lookup domain with
    | none =>
        rw [found] at scoped'
        exact Option.not_isSome_iff_eq_none.mp fun present =>
          Bool.false_ne_true (scoped'.mp present)
    | some selectors =>
        rw [found] at scoped'
        obtain ⟨selectors', found'⟩ := Option.isSome_iff_exists.mp (scoped'.mpr rfl)
        rw [found']
        refine congrArg some ((aggregateRules_entry _ found').unique
          ((aggregateRules_entry _ found).congr fun text => ?_))
        rw [same]

/-- The merged rules hold exactly what the parsed rules of all sources say, in strictly increasing
tables, and the sums of their statistics; they depend on nothing but the set of the parsed rules,
so not on the order of sources or rules and not on rules that are repeated. -/
theorem aggregation_is_canonical (allResults : List (List ParsedRule × ParseStats)) :
    (∀ domain, domain ∈ (aggregateRules allResults).blockDomains ↔
      .domainBlock domain ∈ allResults.flatMap Prod.fst) ∧
    (∀ domain, domain ∈ (aggregateRules allResults).exceptionDomains ↔
      .exception domain ∈ allResults.flatMap Prod.fst) ∧
    (Increasing (aggregateRules allResults).trackerScriptPatterns fun text =>
      ∃ domain path, .urlPattern domain path ∈ allResults.flatMap Prod.fst ∧
        text = domain ++ path) ∧
    Increasing (aggregateRules allResults).cosmeticSelectors
      (.cosmeticGlobal · ∈ allResults.flatMap Prod.fst) ∧
    (((aggregateRules allResults).domainCosmeticMap.map (·.1)).Nodup ∧
      (∀ domain, ((aggregateRules allResults).domainCosmeticMap.lookup domain).isSome = true ↔
        ∃ selector, .cosmeticDomainScoped domain selector ∈ allResults.flatMap Prod.fst) ∧
      ∀ domain selectors,
        (aggregateRules allResults).domainCosmeticMap.lookup domain = some selectors →
        Increasing selectors (.cosmeticDomainScoped domain · ∈ allResults.flatMap Prod.fst)) ∧
    aggregateStats allResults =
      { sourceCount := allResults.length
        totalLines := (allResults.map (·.2.totalLines)).sum
        domainBlocks := (allResults.map (·.2.domainBlocks)).sum
        urlPatterns := (allResults.map (·.2.urlPatterns)).sum
        cosmeticGlobal := (allResults.map (·.2.cosmeticGlobal)).sum
        cosmeticDomainScoped := (allResults.map (·.2.cosmeticDomainScoped)).sum
        exceptions := (allResults.map (·.2.exceptions)).sum
        skippedUnsupported := (allResults.map (·.2.skippedUnsupported)).sum
        skippedComments := (allResults.map (·.2.skippedComments)).sum } ∧
    (∀ allResults' : List (List ParsedRule × ParseStats),
      (allResults'.flatMap Prod.fst).Perm (allResults.flatMap Prod.fst) →
        SameRules (aggregateRules allResults') (aggregateRules allResults)) ∧
    ∀ (allResults' : List (List ParsedRule × ParseStats)) (rule : ParsedRule),
      rule ∈ allResults.flatMap Prod.fst →
      (allResults'.flatMap Prod.fst).Perm (rule :: allResults.flatMap Prod.fst) →
        SameRules (aggregateRules allResults') (aggregateRules allResults) := by
  refine ⟨fun domain => (aggregateRules_domains allResults domain).1,
    fun domain => (aggregateRules_domains allResults domain).2,
    aggregateRules_patterns allResults, aggregateRules_selectors allResults,
    ⟨aggregateRules_nodup allResults, aggregateRules_scoped allResults,
      fun domain selectors => aggregateRules_entry allResults⟩,
    aggregateStats_eq allResults, ?_, ?_⟩
  · exact fun allResults' perm => sameRules_of_mem_iff fun rule => perm.mem_iff
  · intro allResults' rule present perm
    refine sameRules_of_mem_iff fun other => ?_
    rw [perm.mem_iff, List.mem_cons, or_iff_right_iff_imp]
    rintro rfl
    exact present

end FilterList

end PrivacyEngine
