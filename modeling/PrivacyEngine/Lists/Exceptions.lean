import PrivacyEngine.Lists.Rules
import PrivacyEngine.Policy.Domains

/-!
# Exceptions for blocked domains

A line that blocks a domain and the exception with the same text are read by different functions.
They agree on the domain unless the text has a slash or two carets at its end: the block is then
read all the same, and the exception is not, or stands for another name.
-/

namespace PrivacyEngine

open Wire

namespace FilterList

/-- What a line says about domains: its text up to its options. -/
def ruleBody (text : Str) : Str := firstPart 36 (trimEnd text)

/-- A text that blocks and exceptions read alike. -/
def ReadAlike (text : Str) : Prop := 47 ∉ ruleBody text ∧ ¬ [94, 94] <:+ ruleBody text

/-! ## Names -/

theorem normalizeFilterDomain_eq_some {raw domain : Str}
    (named : normalizeFilterDomain raw = some domain) :
    domain = normalizeHost raw ∧ domain ≠ [] := by
  unfold normalizeFilterDomain at named
  dsimp only at named
  split at named
  · cases named
  rename_i filled
  split at named
  · cases named
  split at named
  · cases named
  cases named
  exact ⟨rfl, filled⟩

/-- A slash stays in a name. -/
theorem mem_normalizeHost_of_slash {raw : Str} (slash : 47 ∈ raw) : 47 ∈ normalizeHost raw := by
  have kept := mem_trim_of_solid ⟨by decide, by decide⟩ slash
  obtain ⟨n, trimmed⟩ := exists_trimEndMatches 46 (trim raw)
  rw [trimmed, List.mem_append] at kept
  rcases kept with kept | dot
  · exact List.mem_map.mpr ⟨47, kept, by decide⟩
  · exact absurd (List.eq_of_mem_replicate dot) (by decide)

theorem slash_of_mem_normalizeHost {raw : Str} (slash : 47 ∈ normalizeHost raw) : 47 ∈ raw := by
  obtain ⟨b, mem, lower⟩ := List.mem_map.mp slash
  rw [asciiLower_eq_iff (by decide)] at lower
  subst lower
  have trimmed : 47 ∈ trim raw := (List.rdropWhile_prefix _ _).mem mem
  exact (trim_sublist raw).mem trimmed

/-- A caret at the end stays in a name. -/
theorem normalizeHost_concat_caret (raw : Str) :
    normalizeHost (raw ++ [94]) = toAsciiLowercase (trimStart raw) ++ [94] := by
  have solid : IsSolid 94 := ⟨by decide, by decide⟩
  have ends : trimEndMatches 46 (trimStart raw ++ [94]) = trimStart raw ++ [94] :=
    List.rdropWhile_concat_neg _ _ _ (by decide)
  rw [normalizeHost, trim, trimStart_append_cons solid, trimEnd_append_cons solid]
  rw [show trimEnd [] = [] from rfl, ends, toAsciiLowercase, List.map_append]
  rfl

theorem normalizeHost_length_le (raw : Str) :
    (normalizeHost raw).length ≤ (trimStart raw).length := by
  rw [normalizeHost, toAsciiLowercase, List.length_map]
  refine ((List.rdropWhile_prefix _ _).length_le).trans ?_
  rw [trim, trimEnd, List.length_reverse]
  exact (dropSpaces_suffix _).length_le.trans (List.length_reverse).le

theorem trimStart_append_carets (raw : Str) (n : Nat) :
    trimStart (raw ++ List.replicate n 94) =
      if n = 0 then trimStart raw else trimStart raw ++ List.replicate n 94 := by
  cases n with
  | zero => simp
  | succ n => exact trimStart_append_cons ⟨by decide, by decide⟩ _ _

/-! ## Lines -/

theorem trim_solid_append {lead : Str} (filled : lead ≠ []) (solid : ∀ b ∈ lead, IsSolid b)
    (text : Str) : trim (lead ++ text) = lead ++ trimEnd text := by
  obtain ⟨first, rest, rfl⟩ := List.exists_cons_of_ne_nil filled
  rw [trim, List.cons_append, trimStart_of_solid (solid first List.mem_cons_self)]
  obtain ⟨front, last, lead_eq⟩ := List.eq_nil_or_concat' (first :: rest) |>.resolve_left filled
  rw [← List.cons_append, lead_eq, List.append_assoc, List.singleton_append,
    trimEnd_append_cons (solid last (by rw [lead_eq]; simp))]
  simp

section Parser

variable {isSelector : Str → Bool} {text domain : Str}

theorem parseLine_exception :
    parseLine isSelector (ascii "@@||" ++ text) = parseException (trimEnd text) := by
  have solid : ∀ b ∈ ascii "@@||", IsSolid b := by simp [ascii, IsSolid]
  have starts : (ascii "@@||" ++ trimEnd text).dropPrefix? (ascii "@@||") = some (trimEnd text) :=
    List.dropPrefix?_append_of_beq _ (beq_self_eq_true _)
  have no_comment : isComment (ascii "@@||" ++ trimEnd text) = false := rfl
  rw [parseLine, trim_solid_append (by decide) solid]
  simp only [starts, no_comment]
  rfl

theorem parseDomainOrUrl_of_parseLine
    (blocks : parseLine isSelector (ascii "||" ++ text) = some (.domainBlock domain)) :
    parseDomainOrUrl (trimEnd text) = some (.domainBlock domain) := by
  have solid : ∀ b ∈ ascii "||", IsSolid b := by simp [ascii, IsSolid]
  rw [parseLine, trim_solid_append (by decide) solid] at blocks
  have no_exception : (ascii "||" ++ trimEnd text).dropPrefix? (ascii "@@||") = none := rfl
  have no_comment : isComment (ascii "||" ++ trimEnd text) = false := rfl
  have starts : (ascii "||" ++ trimEnd text).dropPrefix? (ascii "||") = some (trimEnd text) :=
    List.dropPrefix?_append_of_beq _ (beq_self_eq_true _)
  simp only [no_exception, no_comment, starts] at blocks
  split at blocks
  · cases blocks
  split at blocks
  · cases blocks
  split at blocks
  · obtain ⟨selector, names, -⟩ := parseCosmetic_selector blocks
    cases names
  · exact blocks

/-- A blocking line has a slash in its text, or its text names the domain but for carets. -/
theorem parseDomainOrUrl_domainBlock {rest : Str}
    (blocks : parseDomainOrUrl rest = some (.domainBlock domain)) :
    47 ∈ firstPart 36 rest ∨
      normalizeFilterDomain (trimEndMatches 94 (firstPart 36 rest)) = some domain := by
  unfold parseDomainOrUrl at blocks
  dsimp only at blocks
  split at blocks
  · rename_i cut
    rw [(splitOnce_eq_some_iff.mp cut).1]
    exact .inl (List.mem_append_right _ List.mem_cons_self)
  · split at blocks
    · cases blocks
    · rename_i named
      cases blocks
      exact .inr named

theorem domainBlock_filled {rest : Str}
    (blocks : parseDomainOrUrl rest = some (.domainBlock domain)) : domain ≠ [] := by
  unfold parseDomainOrUrl at blocks
  dsimp only at blocks
  split at blocks
  · split at blocks
    · cases blocks
    · rename_i named
      split at blocks
      · cases blocks
        exact (normalizeFilterDomain_eq_some named).2
      · cases blocks
  · split at blocks
    · cases blocks
    · rename_i named
      cases blocks
      exact (normalizeFilterDomain_eq_some named).2

theorem parseException_eq_some {rest : Str} {domainPart : Str}
    (part : domainPart = if (firstPart 36 rest).getLast? = some 94 then (firstPart 36 rest).dropLast
      else firstPart 36 rest) {rule : ParsedRule} :
    parseException rest = some rule ↔
      ∃ domain, normalizeFilterDomain domainPart = some domain ∧ 47 ∉ domain ∧
        rule = .exception domain := by
  subst part
  rw [parseException]
  split
  · rename_i unnamed
    simp [unnamed]
  · rename_i domain named
    rw [named]
    split
    · rename_i slash
      simp [slash]
    · rename_i plain
      simp [plain, eq_comm]

/-- Without slashes and pairs of carets, a block and an exception name their domain alike. -/
theorem parseException_of_readAlike (alike : ReadAlike text)
    (blocks : parseDomainOrUrl (trimEnd text) = some (.domainBlock domain)) :
    parseException (trimEnd text) = some (.exception domain) := by
  obtain ⟨plain, single⟩ := alike
  have named := (parseDomainOrUrl_domainBlock blocks).resolve_left plain
  have part : trimEndMatches 94 (ruleBody text) =
      if (ruleBody text).getLast? = some 94 then (ruleBody text).dropLast
      else ruleBody text := by
    split
    · rename_i caret
      obtain ⟨front, body_eq⟩ := List.getLast?_eq_some_iff.mp caret
      rw [body_eq, List.dropLast_concat, trimEndMatches, List.rdropWhile_concat_pos _ _ _ (by simp)]
      refine List.rdropWhile_eq_self_iff.mpr fun filled more => single ?_
      rw [body_eq, ← List.dropLast_append_getLast filled, beq_iff_eq.mp more, List.append_assoc]
      exact List.suffix_append _ _
    · rename_i no_caret
      refine List.rdropWhile_eq_self_iff.mpr fun filled caret => no_caret ?_
      rw [List.getLast?_eq_some_getLast filled, beq_iff_eq.mp caret]
  refine (parseException_eq_some part).mpr ⟨domain, named, fun slash => plain ?_, rfl⟩
  rw [(normalizeFilterDomain_eq_some named).1] at slash
  exact (List.rdropWhile_prefix _ _).mem (slash_of_mem_normalizeHost slash)

/-- Otherwise an exception is for a longer name, if there is one. -/
theorem length_lt_of_not_readAlike (differ : ¬ReadAlike text)
    (blocks : parseDomainOrUrl (trimEnd text) = some (.domainBlock domain)) {other : Str}
    (excepts : parseException (trimEnd text) = some (.exception other)) :
    domain.length < other.length := by
  obtain ⟨name, named, plain, ⟨⟩⟩ := (parseException_eq_some rfl).mp excepts
  have no_slash : 47 ∉ ruleBody text := by
    intro slash
    refine plain ?_
    rw [(normalizeFilterDomain_eq_some named).1]
    refine mem_normalizeHost_of_slash ?_
    split
    · rename_i caret
      obtain ⟨front, body_eq⟩ := List.getLast?_eq_some_iff.mp caret
      rw [ruleBody, body_eq, List.mem_append] at slash
      rw [body_eq, List.dropLast_concat]
      exact slash.resolve_right (by decide)
    · exact slash
  have carets : [94, 94] <:+ ruleBody text := by
    by_contra single
    exact differ ⟨no_slash, single⟩
  obtain ⟨front, body_eq⟩ := carets
  have cut : front ++ [94, 94] = front ++ [94] ++ [94] := by simp
  have ends : (front ++ [94, 94]).getLast? = some 94 := by rw [cut, List.getLast?_concat]
  rw [show firstPart 36 (trimEnd text) = front ++ [94, 94] from body_eq.symm, if_pos ends, cut,
    List.dropLast_concat] at named
  have name_eq := (normalizeFilterDomain_eq_some named).1
  have named' := (parseDomainOrUrl_domainBlock blocks).resolve_left no_slash
  have domain_eq := (normalizeFilterDomain_eq_some named').1
  obtain ⟨n, front_eq⟩ := exists_trimEndMatches 94 front
  have trimmed : trimEndMatches 94 (firstPart 36 (trimEnd text)) = trimEndMatches 94 front := by
    rw [show firstPart 36 (trimEnd text) = front ++ [94, 94] from body_eq.symm, cut,
      trimEndMatches, List.rdropWhile_concat_pos _ _ _ (by simp),
      List.rdropWhile_concat_pos _ _ _ (by simp)]
    rfl
  have shorter : (trimStart (trimEndMatches 94 front)).length ≤ (trimStart front).length := by
    conv_rhs => rw [front_eq, trimStart_append_carets]
    split
    · exact le_rfl
    · rw [List.length_append]
      exact Nat.le_add_right _ _
  calc
    domain.length ≤ (trimStart (trimEndMatches 94 front)).length := by
      rw [domain_eq, trimmed]
      exact normalizeHost_length_le _
    _ ≤ (trimStart front).length := shorter
    _ < other.length := by
      rw [name_eq, normalizeHost_concat_caret, List.length_append, toAsciiLowercase,
        List.length_map]
      exact Nat.lt_succ_self _

end Parser

/-- The rule of a line is among the rules of the lists that have the line. -/
theorem mem_rules_of_mem_lines {isSelector : Str → Bool} {texts : List Str} {line : Str}
    {rule : ParsedRule} (mem : line ∈ texts.flatMap textLines)
    (parses : parseLine isSelector line = some rule) :
    rule ∈ texts.flatMap fun text => (parseFilterList isSelector text).1 := by
  obtain ⟨text, text_mem, line_mem⟩ := List.mem_flatMap.mp mem
  refine List.mem_flatMap.mpr ⟨text, text_mem, ?_⟩
  rw [parseFilterList, foldl_readLine_rules, List.nil_append]
  exact List.mem_filterMap.mpr ⟨line, line_mem, parses⟩

/-- An exception stands for the domain that the same text blocks exactly if the text has no slash
and no two carets at its end.  Then lists with both lines block neither the domain nor what belongs
to it; otherwise a list of the two lines blocks the domain. -/
theorem exception_cancels_block_iff {isSelector : Str → Bool} {text domain : Str}
    (blocks : parseLine isSelector (ascii "||" ++ text) = some (.domainBlock domain)) :
    (parseLine isSelector (ascii "@@||" ++ text) = some (.exception domain) ↔ ReadAlike text) ∧
    (ReadAlike text → ∀ (engine : PolicyEngine) (texts : List Str) (host : Str),
      ascii "||" ++ text ∈ texts.flatMap textLines →
      ascii "@@||" ++ text ∈ texts.flatMap textLines → BelongsTo host domain →
        (engine.withLists isSelector texts).filterListBlocks host = false) ∧
    (¬ReadAlike text → 10 ∉ text → ∀ engine : PolicyEngine,
      (engine.withLists isSelector
        [ascii "||" ++ text ++ 10 :: (ascii "@@||" ++ text)]).filterListBlocks domain = true) := by
  have body := parseDomainOrUrl_of_parseLine blocks
  refine ⟨?_, ?_, ?_⟩
  · rw [parseLine_exception]
    constructor
    · intro excepts
      by_contra differ
      exact absurd (length_lt_of_not_readAlike differ body excepts) (lt_irrefl _)
    · exact fun alike => parseException_of_readAlike alike body
  · intro alike engine texts host _ listed belongs
    have excepts : parseLine isSelector (ascii "@@||" ++ text) = some (.exception domain) := by
      rw [parseLine_exception]
      exact parseException_of_readAlike alike body
    have mem := ((@PolicyEngine.withLists_domains engine isSelector texts domain).2).mpr
      (mem_rules_of_mem_lines listed excepts)
    rw [← Bool.not_eq_true, PolicyEngine.filterListBlocks_iff]
    rintro ⟨-, -, free⟩
    exact free ⟨domain, mem, belongs⟩
  · intro differ no_lf engine
    have clean : ∀ lead : Str, 10 ∉ lead → 10 ∉ lead ++ text := fun lead absent mem =>
      (List.mem_append.mp mem).elim absent no_lf
    have rules : ([ascii "||" ++ text ++ 10 :: (ascii "@@||" ++ text)].flatMap
        fun text => (parseFilterList isSelector text).1) =
        .domainBlock domain :: (parseException (trimEnd text)).toList := by
      rw [List.flatMap_singleton, parseFilterList_append,
        parseFilterList_line (clean _ (by decide)), parseFilterList_line (clean _ (by decide)),
        blocks, parseLine_exception]
      rfl
    rw [PolicyEngine.filterListBlocks_iff]
    refine ⟨domainBlock_filled body, ⟨domain, ?_, .inl rfl⟩, ?_⟩
    · rw [(PolicyEngine.withLists_domains domain).1, rules]
      exact List.mem_cons_self
    · rintro ⟨other, mem, belongs⟩
      rw [(PolicyEngine.withLists_domains other).2, rules, List.mem_cons] at mem
      have excepts := Option.mem_toList.mp (mem.resolve_left (by simp))
      exact absurd belongs.length_le (length_lt_of_not_readAlike differ body excepts).not_ge

theorem ads_exception_cancels_block :
    parseLine (fun _ => true) (ascii "@@||" ++ ascii "ads.example^$script") =
      some (.exception (ascii "ads.example")) := by
  have blocks : parseLine (fun _ => true) (ascii "||" ++ ascii "ads.example^$script") =
      some (.domainBlock (ascii "ads.example")) := by decide +kernel
  exact (exception_cancels_block_iff blocks).1.mpr ⟨by decide +kernel, by decide +kernel⟩

/-- A trailing slash leaves a block and drops its exception; a second caret changes the name of the
exception. -/
theorem slash_exception_is_dropped :
    (parseLine (fun _ => true) (ascii "||" ++ ascii "ads.example/") =
        some (.domainBlock (ascii "ads.example")) ∧
      parseLine (fun _ => true) (ascii "@@||" ++ ascii "ads.example/") = none) ∧
    (parseLine (fun _ => true) (ascii "||" ++ ascii "ads.example^^") =
        some (.domainBlock (ascii "ads.example")) ∧
      parseLine (fun _ => true) (ascii "@@||" ++ ascii "ads.example^^") =
        some (.exception (ascii "ads.example^"))) := by
  decide +kernel

end FilterList

end PrivacyEngine
