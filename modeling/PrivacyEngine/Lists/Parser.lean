import PrivacyEngine.Policy.Engine
import PrivacyEngine.Wire.Spaceless

/-!
# Filter-list lines

A filter list is read line by line.  Every line gives at most one rule, whatever the white space and
the line end around it, so the rules of a list are those of the pieces between its line feeds.
-/

namespace PrivacyEngine

open Wire

inductive ParsedRule where
  | domainBlock (domain : Str)
  | urlPattern (domain path : Str)
  | cosmeticGlobal (selector : Str)
  | cosmeticDomainScoped (domain selector : Str)
  | exception (domain : Str)
  deriving DecidableEq

inductive RuleKind where
  | domainBlock
  | urlPattern
  | cosmeticGlobal
  | cosmeticDomainScoped
  | exception
  deriving DecidableEq

def ParsedRule.kind : ParsedRule → RuleKind
  | .domainBlock _ => .domainBlock
  | .urlPattern _ _ => .urlPattern
  | .cosmeticGlobal _ => .cosmeticGlobal
  | .cosmeticDomainScoped _ _ => .cosmeticDomainScoped
  | .exception _ => .exception

/-- The selector of a cosmetic rule. -/
def ParsedRule.selector : ParsedRule → Option Str
  | .cosmeticGlobal selector | .cosmeticDomainScoped _ selector => some selector
  | .domainBlock _ | .urlPattern _ _ | .exception _ => none

structure ParseStats where
  totalLines : Nat := 0
  domainBlocks : Nat := 0
  urlPatterns : Nat := 0
  cosmeticGlobal : Nat := 0
  cosmeticDomainScoped : Nat := 0
  exceptions : Nat := 0
  skippedComments : Nat := 0
  skippedUnsupported : Nat := 0
  deriving DecidableEq

namespace ParseStats

/-- The count of a rule of one kind. -/
def count (stats : ParseStats) : ParsedRule → ParseStats
  | .domainBlock _ => { stats with domainBlocks := stats.domainBlocks + 1 }
  | .urlPattern _ _ => { stats with urlPatterns := stats.urlPatterns + 1 }
  | .cosmeticGlobal _ => { stats with cosmeticGlobal := stats.cosmeticGlobal + 1 }
  | .cosmeticDomainScoped _ _ =>
      { stats with cosmeticDomainScoped := stats.cosmeticDomainScoped + 1 }
  | .exception _ => { stats with exceptions := stats.exceptions + 1 }

/-- How many rules have been counted. -/
def ruleCount (stats : ParseStats) : Nat :=
  stats.domainBlocks + stats.urlPatterns + stats.cosmeticGlobal + stats.cosmeticDomainScoped +
    stats.exceptions

/-- Every rule is counted in one of the five kinds. -/
theorem count_ruleCount (stats : ParseStats) (rule : ParsedRule) :
    (stats.count rule).ruleCount = stats.ruleCount + 1 := by
  cases rule <;> simp only [count, ruleCount] <;> omega

/-- The counter of a kind of rule. -/
def counter (stats : ParseStats) : RuleKind → Nat
  | .domainBlock => stats.domainBlocks
  | .urlPattern => stats.urlPatterns
  | .cosmeticGlobal => stats.cosmeticGlobal
  | .cosmeticDomainScoped => stats.cosmeticDomainScoped
  | .exception => stats.exceptions

/-- Counting a rule moves the counter of its kind only. -/
theorem count_counter (stats : ParseStats) (rule : ParsedRule) (kind : RuleKind) :
    (stats.count rule).counter kind =
      stats.counter kind + if rule.kind = kind then 1 else 0 := by
  cases rule <;> cases kind <;> rfl

theorem count_totalLines (stats : ParseStats) (rule : ParsedRule) :
    (stats.count rule).totalLines = stats.totalLines := by
  cases rule <;> rfl

theorem count_skippedComments (stats : ParseStats) (rule : ParsedRule) :
    (stats.count rule).skippedComments = stats.skippedComments := by
  cases rule <;> rfl

theorem count_skippedUnsupported (stats : ParseStats) (rule : ParsedRule) :
    (stats.count rule).skippedUnsupported = stats.skippedUnsupported := by
  cases rule <;> rfl

end ParseStats

namespace FilterList

/-! ## Lines -/

def normalizeFilterDomain (raw : Str) : Option Str :=
  let trimmed := toAsciiLowercase (trimEndMatches 46 (trim raw))
  if trimmed = [] then none
  else if 42 ∈ trimmed ∨ 63 ∈ trimmed ∨ 123 ∈ trimmed then none
  else if 32 ∈ trimmed then none
  else some trimmed

/-- The text before the first byte of a kind. -/
def firstPart (sep : UInt8) (s : Str) : Str := s.takeWhile (· ≠ sep)

/-- An exception for a domain; exceptions with a path are skipped. -/
def parseException (rest : Str) : Option ParsedRule :=
  let domainPart := firstPart 36 rest
  let domainPart := if domainPart.getLast? = some 94 then domainPart.dropLast else domainPart
  match normalizeFilterDomain domainPart with
  | none => none
  | some domain => if 47 ∈ domain then none else some (.exception domain)

def extendedCss : List Str :=
  [ascii ":has(", ascii ":has-text(", ascii ":matches-css(", ascii ":-abp-has(",
    ascii ":-abp-contains(", ascii ":contains(", ascii ":xpath(", ascii ":nth-ancestor(",
    ascii ":upward(", ascii ":remove(", ascii ":style(", ascii ":matches-path("]

def containsExtendedCss (selector : Str) : Bool :=
  extendedCss.any (contains (toAsciiLowercase selector))

section Parser

-- The selectors that the CSS parser of the rewriting library accepts.
variable (isSelector : Str → Bool)

/-- A cosmetic rule, cut at its separator; of several domains the first counts. -/
def parseCosmetic (line : Str) (separatorIdx : Nat) : Option ParsedRule :=
  let domainPart := line.take separatorIdx
  let selector := line.drop (separatorIdx + 2)
  if selector = [] then none
  else if containsExtendedCss selector then none
  else if !isSelector selector then none
  else if domainPart = [] then some (.cosmeticGlobal selector)
  else
    match normalizeFilterDomain (firstPart 44 domainPart) with
    | none => none
    | some domain => some (.cosmeticDomainScoped domain selector)

def parseDomainOrUrl (rest : Str) : Option ParsedRule :=
  let withoutOptions := firstPart 36 rest
  match splitOnce 47 withoutOptions with
  | some (domainPart, behind) =>
      let pathPart := trimEndMatches 94 (47 :: behind)
      match normalizeFilterDomain domainPart with
      | none => none
      | some domain =>
          if pathPart = [] ∨ pathPart = [47] then some (.domainBlock domain)
          else some (.urlPattern domain pathPart)
  | none =>
      match normalizeFilterDomain (trimEndMatches 94 withoutOptions) with
      | none => none
      | some domain => some (.domainBlock domain)

/-- Comments and header lines. -/
def isComment (line : Str) : Bool := line.head? == some 33 || line.head? == some 91

def parseLine (line : Str) : Option ParsedRule :=
  let line := trim line
  if line = [] then none
  else if isComment line then none
  else
    match line.dropPrefix? (ascii "@@||") with
    | some rest => parseException rest
    | none =>
        match findSub (ascii "##") line with
        | some idx => parseCosmetic isSelector line idx
        | none =>
            match line.dropPrefix? (ascii "||") with
            | some rest => parseDomainOrUrl rest
            | none => none

/-! ## Texts -/

/-- The lines of a text: pieces between line feeds, without the carriage return before one; what
is behind the last line feed is a line when it is not empty. -/
def textLines (text : Str) : List Str :=
  let pieces := text.splitOn 10
  pieces.dropLast.map stripTrailingCr ++ (pieces.getLast?.filter (· ≠ [])).toList

/-- One turn of the loop over the lines. -/
def readLine (read : List ParsedRule × ParseStats) (line : Str) : List ParsedRule × ParseStats :=
  let stats := { read.2 with totalLines := read.2.totalLines + 1 }
  let trimmed := trim line
  if trimmed = [] then (read.1, stats)
  else if isComment trimmed then
    (read.1, { stats with skippedComments := stats.skippedComments + 1 })
  else
    match parseLine isSelector trimmed with
    | some rule => (read.1 ++ [rule], stats.count rule)
    | none => (read.1, { stats with skippedUnsupported := stats.skippedUnsupported + 1 })

def parseFilterList (text : Str) : List ParsedRule × ParseStats :=
  (textLines text).foldl (readLine isSelector) ([], {})

end Parser

/-! ## The rules of a text -/

section Rules

variable {isSelector : Str → Bool}

/-- White space around a line says nothing. -/
theorem parseLine_trim (line : Str) :
    parseLine isSelector (trim line) = parseLine isSelector line := by
  simp only [parseLine, trim_trim]

theorem parseLine_stripTrailingCr (line : Str) :
    parseLine isSelector (stripTrailingCr line) = parseLine isSelector line := by
  rw [stripTrailingCr]
  split
  · rename_i ends
    obtain ⟨front, rfl⟩ := List.getLast?_eq_some_iff.mp ends
    rw [List.dropLast_concat, ← parseLine_trim, ← trim_concat_cr, parseLine_trim]
  · rfl

/-- Only selectors that parse become rules. -/
theorem parseCosmetic_selector {line : Str} {idx : Nat} {rule : ParsedRule}
    (parses : parseCosmetic isSelector line idx = some rule) :
    ∃ selector, rule.selector = some selector ∧ isSelector selector = true := by
  unfold parseCosmetic at parses
  dsimp only at parses
  split at parses
  · cases parses
  split at parses
  · cases parses
  split at parses
  · cases parses
  rename_i accepted
  have accepted' : isSelector (line.drop (idx + 2)) = true := by simpa using accepted
  split at parses
  · cases parses
    exact ⟨_, rfl, accepted'⟩
  · split at parses
    · cases parses
    · cases parses
      exact ⟨_, rfl, accepted'⟩

theorem parseException_selector {rest : Str} {rule : ParsedRule}
    (parses : parseException rest = some rule) : rule.selector = none := by
  unfold parseException at parses
  dsimp only at parses
  split at parses
  · cases parses
  · split at parses
    · cases parses
    · cases parses
      rfl

theorem parseDomainOrUrl_selector {rest : Str} {rule : ParsedRule}
    (parses : parseDomainOrUrl rest = some rule) : rule.selector = none := by
  unfold parseDomainOrUrl at parses
  dsimp only at parses
  split at parses
  · split at parses
    · cases parses
    · split at parses <;> cases parses <;> rfl
  · split at parses
    · cases parses
    · cases parses
      rfl

theorem isSelector_of_parseLine {line : Str} {rule : ParsedRule} {selector : Str}
    (parses : parseLine isSelector line = some rule) (names : rule.selector = some selector) :
    isSelector selector = true := by
  unfold parseLine at parses
  dsimp only at parses
  split at parses
  · cases parses
  split at parses
  · cases parses
  split at parses
  · rw [parseException_selector parses] at names
    cases names
  split at parses
  · obtain ⟨selector', names', accepted⟩ := parseCosmetic_selector parses
    rw [names] at names'
    cases names'
    exact accepted
  split at parses
  · rw [parseDomainOrUrl_selector parses] at names
    cases names
  · cases parses

/-- What one turn does with a line: it is blank, a comment, not supported, or the line of a rule. -/
theorem readLine_cases (read : List ParsedRule × ParseStats) (line : Str) :
    (trim line = [] ∧ parseLine isSelector line = none ∧
      readLine isSelector read line =
        (read.1, { read.2 with totalLines := read.2.totalLines + 1 })) ∨
    (trim line ≠ [] ∧ isComment (trim line) = true ∧ parseLine isSelector line = none ∧
      readLine isSelector read line =
        (read.1, { read.2 with
          totalLines := read.2.totalLines + 1
          skippedComments := read.2.skippedComments + 1 })) ∨
    (trim line ≠ [] ∧ isComment (trim line) = false ∧ parseLine isSelector line = none ∧
      readLine isSelector read line =
        (read.1, { read.2 with
          totalLines := read.2.totalLines + 1
          skippedUnsupported := read.2.skippedUnsupported + 1 })) ∨
    (trim line ≠ [] ∧ isComment (trim line) = false ∧
      ∃ rule, parseLine isSelector line = some rule ∧
        readLine isSelector read line =
          (read.1 ++ [rule],
            { read.2 with totalLines := read.2.totalLines + 1 }.count rule)) := by
  by_cases blank : trim line = []
  · left
    simp [readLine, parseLine, blank]
  · cases comment : isComment (trim line) with
    | true =>
        right; left
        simp [readLine, parseLine, blank, comment]
    | false =>
        right; right
        cases parses : parseLine isSelector line with
        | none =>
            left
            simp [readLine, parseLine_trim, blank, comment, parses]
        | some rule =>
            right
            simp [readLine, parseLine_trim, blank, comment, parses]

/-- One turn adds the rule of its line. -/
theorem readLine_rules (read : List ParsedRule × ParseStats) (line : Str) :
    (readLine isSelector read line).1 = read.1 ++ (parseLine isSelector line).toList := by
  rcases readLine_cases read line with ⟨-, none, turn⟩ | ⟨-, -, none, turn⟩ | ⟨-, -, none, turn⟩ |
    ⟨-, -, rule, parses, turn⟩
  · rw [turn, none, Option.toList_none, List.append_nil]
  · rw [turn, none, Option.toList_none, List.append_nil]
  · rw [turn, none, Option.toList_none, List.append_nil]
  · rw [turn, parses, Option.toList_some]

theorem foldl_readLine_rules (lines : List Str) (read : List ParsedRule × ParseStats) :
    (lines.foldl (readLine isSelector) read).1 =
      read.1 ++ lines.filterMap (parseLine isSelector) := by
  induction lines generalizing read with
  | nil => exact (List.append_nil _).symm
  | cons line lines ih =>
      rw [List.foldl_cons, ih, readLine_rules, List.filterMap_cons, List.append_assoc]
      cases parseLine isSelector line with
      | none => rfl
      | some rule => rfl

/-- One turn counts the rule that it adds. -/
theorem readLine_ruleCount {read : List ParsedRule × ParseStats}
    (counted : read.2.ruleCount = read.1.length) (line : Str) :
    (readLine isSelector read line).2.ruleCount = (readLine isSelector read line).1.length := by
  rcases readLine_cases read line with ⟨-, -, turn⟩ | ⟨-, -, -, turn⟩ | ⟨-, -, -, turn⟩ |
    ⟨-, -, rule, -, turn⟩
  · rw [turn]
    exact counted
  · rw [turn]
    exact counted
  · rw [turn]
    exact counted
  · rw [turn, ParseStats.count_ruleCount, List.length_append]
    exact congrArg (· + 1) counted

theorem parseFilterList_ruleCount (text : Str) :
    (parseFilterList isSelector text).2.ruleCount =
      (parseFilterList isSelector text).1.length := by
  rw [parseFilterList]
  have loop : ∀ (lines : List Str) (read : List ParsedRule × ParseStats),
      read.2.ruleCount = read.1.length →
      (lines.foldl (readLine isSelector) read).2.ruleCount =
        (lines.foldl (readLine isSelector) read).1.length := by
    intro lines
    induction lines with
    | nil => exact fun read counted => counted
    | cons line lines ih => exact fun read counted => ih _ (readLine_ruleCount counted line)
  exact loop _ _ rfl

/-- The rules of a text are those of the pieces between its line feeds. -/
theorem parseFilterList_rules (text : Str) :
    (parseFilterList isSelector text).1 = (text.splitOn 10).filterMap (parseLine isSelector) := by
  have pieces_ne : text.splitOn 10 ≠ [] := List.splitOn_ne_nil _ _
  rw [parseFilterList, foldl_readLine_rules, List.nil_append, textLines, List.filterMap_append,
    List.filterMap_map]
  have stripped : (parseLine isSelector ∘ stripTrailingCr) = parseLine isSelector :=
    funext parseLine_stripTrailingCr
  conv_rhs => rw [← List.dropLast_append_getLast pieces_ne, List.filterMap_append]
  rw [stripped, List.getLast?_eq_some_getLast pieces_ne]
  congr 1
  by_cases empty : (text.splitOn 10).getLast pieces_ne = []
  · rw [empty]
    rfl
  · rw [Option.filter_some, if_pos (by simpa using empty)]
    rfl

/-- The rules of a text cut at a line feed. -/
theorem parseFilterList_append (before after : Str) :
    (parseFilterList isSelector (before ++ 10 :: after)).1 =
      (parseFilterList isSelector before).1 ++ (parseFilterList isSelector after).1 := by
  simp only [parseFilterList_rules, List.splitOn_append_cons_self, List.filterMap_append]

/-- A text without a line feed has the rule of its only line. -/
theorem parseFilterList_line {line : Str} (no_lf : 10 ∉ line) :
    (parseFilterList isSelector line).1 = (parseLine isSelector line).toList := by
  rw [parseFilterList_rules, List.splitOn_eq_singleton no_lf]
  cases parses : parseLine isSelector line with
  | none => simp [parses]
  | some rule => simp [parses]

end Rules

/-! ## Every line is accounted for -/

section Accounting

variable {isSelector : Str → Bool}

/-- What the loop has found in the lines it has read. -/
structure Accounts (isSelector : Str → Bool) (lines : List Str)
    (read : List ParsedRule × ParseStats) : Prop where
  rules : read.1 = lines.filterMap (parseLine isSelector)
  counters : ∀ kind, read.2.counter kind = read.1.countP (fun rule => rule.kind = kind)
  comments : read.2.skippedComments = lines.countP fun line => isComment (trim line)
  total : read.2.totalLines = lines.length
  partition : read.2.totalLines =
    lines.countP (fun line => trim line = []) + read.2.skippedComments +
      read.2.skippedUnsupported + read.1.length

theorem accounts_readLine {lines : List Str} {read : List ParsedRule × ParseStats}
    (accounts : Accounts isSelector lines read) (line : Str) :
    Accounts isSelector (lines ++ [line]) (readLine isSelector read line) := by
  obtain ⟨rules, counters, comments, total, partition⟩ := accounts
  have no_comment_of_blank (blank : trim line = []) : isComment (trim line) = false := by
    rw [blank]
    rfl
  rcases readLine_cases read line with ⟨blank, none, turn⟩ | ⟨filled, comment, none, turn⟩ |
    ⟨filled, comment, none, turn⟩ | ⟨filled, comment, rule, parses, turn⟩
  · rw [turn]
    refine ⟨?_, counters, ?_, ?_, ?_⟩
    · simp [rules, none]
    · simp [comments, no_comment_of_blank blank]
    · simp [total]
    · simp only [List.countP_append, List.countP_singleton, blank, decide_true, if_true]
      omega
  · rw [turn]
    refine ⟨?_, counters, ?_, ?_, ?_⟩
    · simp [rules, none]
    · simp [comments, comment]
    · simp [total]
    · simp only [List.countP_append, List.countP_singleton, filled, decide_false,
        Bool.false_eq_true, if_false]
      omega
  · rw [turn]
    refine ⟨?_, counters, ?_, ?_, ?_⟩
    · simp [rules, none]
    · simp [comments, comment]
    · simp [total]
    · simp only [List.countP_append, List.countP_singleton, filled, decide_false,
        Bool.false_eq_true, if_false]
      omega
  · rw [turn]
    refine ⟨?_, ?_, ?_, ?_, ?_⟩
    · simp [rules, parses]
    · intro kind
      rw [ParseStats.count_counter, List.countP_append, List.countP_singleton, ← counters kind]
      simp only [decide_eq_true_eq]
      rfl
    · simp [ParseStats.count_skippedComments, comments, comment]
    · simp [ParseStats.count_totalLines, total]
    · simp only [ParseStats.count_totalLines, ParseStats.count_skippedComments,
        ParseStats.count_skippedUnsupported, List.countP_append, List.countP_singleton, filled,
        decide_false, Bool.false_eq_true, if_false, List.length_append, List.length_singleton]
      omega

theorem accounts_foldl (behind : List Str) {lines : List Str}
    {read : List ParsedRule × ParseStats} (accounts : Accounts isSelector lines read) :
    Accounts isSelector (lines ++ behind) (behind.foldl (readLine isSelector) read) := by
  induction behind generalizing lines read with
  | nil => simpa using accounts
  | cons line behind ih =>
      have turn := ih (accounts_readLine accounts line)
      rwa [List.append_assoc] at turn

theorem accounts_parseFilterList (text : Str) :
    Accounts isSelector (textLines text) (parseFilterList isSelector text) := by
  have start : Accounts isSelector [] ([], {}) :=
    ⟨rfl, fun kind => by cases kind <;> rfl, rfl, rfl, rfl⟩
  exact accounts_foldl (textLines text) start

end Accounting

/-- Every line of a text is blank, a comment, not supported, or the line of exactly one rule, and
the counters say how many there are of each. -/
theorem parseFilterList_accounts_for_lines (isSelector : Str → Bool) (text : Str) :
    let lines := textLines text
    let rules := (parseFilterList isSelector text).1
    let stats := (parseFilterList isSelector text).2
    rules = lines.filterMap (parseLine isSelector) ∧
    (∀ kind, stats.counter kind = rules.countP (fun rule => rule.kind = kind)) ∧
    stats.skippedComments = lines.countP (fun line => isComment (trim line)) ∧
    stats.totalLines = lines.length ∧
    stats.totalLines =
      lines.countP (fun line => trim line = []) + stats.skippedComments +
        stats.skippedUnsupported + rules.length :=
  let accounts := accounts_parseFilterList text
  ⟨accounts.rules, accounts.counters, accounts.comments, accounts.total, accounts.partition⟩

end FilterList
end PrivacyEngine
