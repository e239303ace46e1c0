import PrivacyEngine.Lists.Aggregate
import PrivacyEngine.Mitm.BodyRewrite
import PrivacyEngine.Policy.Accepted
import PrivacyEngine.Policy.Domains

/-!
# Selectors of a body rewrite

Before a body is rewritten, every selector of the plan is parsed through a cache that all rewrites
share.  The configuration is validated and the filter lists are filtered with the same parser, and
nothing on the way to a plan makes up a selector, so all of them parse.
-/

namespace PrivacyEngine

open Wire FilterList

/-- What a handler does with the elements of its selector. -/
inductive ElementHandler where
  | removeScripts (manualPatterns filterPatterns : List Str)
  | removePixels
  | removeCosmetic
  /-- Put the fixed script and a style sheet with these rules in front of the head. -/
  | prependStyle (injectCss : Str)
  deriving DecidableEq

/-- A library that parses selectors and rewrites bodies with handlers for them. -/
structure HtmlLibrary where
  parseSelector : Str → Except Str Unit
  write : List (Str × ElementHandler) → Bytes → Except Str Unit
  finish : List (Str × ElementHandler) → Bytes → Except Str (Bytes × BodyRewriteDetails)

namespace HtmlLibrary

def isSelector (lib : HtmlLibrary) (selector : Str) : Bool := (lib.parseSelector selector).isOk

/-- One pass over a body with all handlers. -/
def run (lib : HtmlLibrary) (pairs : List (Str × ElementHandler)) (body : Bytes) :
    Except Str (Bytes × BodyRewriteDetails) :=
  match lib.write pairs body with
  | .error error => .error (ascii "lol_html write error: " ++ error)
  | .ok _ =>
      match lib.finish pairs body with
      | .error error => .error (ascii "lol_html end error: " ++ error)
      | .ok (output, details) => .ok (output, { details with bytesSaved := 0 })

end HtmlLibrary

/-! ## The cache -/

/-- Selectors that have been parsed before; a poisoned cache is not used. -/
structure SelectorCache (lib : HtmlLibrary) where
  poisoned : Bool
  entries : List Str
  parsed : ∀ selector ∈ entries, lib.isSelector selector = true

def SelectorCache.empty {lib : HtmlLibrary} : SelectorCache lib := ⟨false, [], by simp⟩

def maxCache : Nat := 50000

section Parse

variable {lib : HtmlLibrary}

theorem isSelector_of_parseSelector {selector : Str} {done : Unit}
    (parses : lib.parseSelector selector = .ok done) : lib.isSelector selector = true := by
  rw [HtmlLibrary.isSelector, parses]
  rfl

theorem parseSelector_of_isSelector {selector : Str} (accepted : lib.isSelector selector = true) :
    lib.parseSelector selector = .ok () := by
  rw [HtmlLibrary.isSelector] at accepted
  cases parses : lib.parseSelector selector with
  | ok done => rfl
  | error error =>
      rw [parses] at accepted
      cases accepted

def SelectorCache.insert (cache : SelectorCache lib) (selector : Str)
    (accepted : lib.isSelector selector = true) : SelectorCache lib where
  poisoned := cache.poisoned
  entries := selector :: cache.entries
  parsed := List.forall_mem_cons.mpr ⟨accepted, cache.parsed⟩

def invalidSelector (selector error : Str) : Str :=
  ascii "invalid CSS selector " ++ quoted selector ++ ascii ": " ++ error

def parseSelectorCached (cache : SelectorCache lib) (selector : Str) :
    Except Str Unit × SelectorCache lib :=
  if cache.poisoned then ((lib.parseSelector selector).mapError (invalidSelector selector), cache)
  else if cache.entries.contains selector then (.ok (), cache)
  else
    match parses : lib.parseSelector selector with
    | .error error => (.error (invalidSelector selector error), cache)
    | .ok _ =>
        (.ok (), if cache.entries.length < maxCache then
            cache.insert selector (isSelector_of_parseSelector parses)
          else cache)

/-- The cache answers as the parser does. -/
theorem parseSelectorCached_fst (cache : SelectorCache lib) (selector : Str) :
    (parseSelectorCached cache selector).1 =
      (lib.parseSelector selector).mapError (invalidSelector selector) := by
  unfold parseSelectorCached
  split
  · rfl
  · split
    · rename_i cached
      have accepted := cache.parsed selector (by simpa using cached)
      rw [parseSelector_of_isSelector accepted]
      rfl
    · split
      · rename_i error parses
        exact (congrArg (Except.mapError (invalidSelector selector)) parses).symm
      · rename_i done parses
        exact (congrArg (Except.mapError (invalidSelector selector)) parses).symm

end Parse

/-! ## The requests of a rewrite -/

/-- A selector to parse, what to call an error of it, and its handler. -/
structure SelectorRequest where
  selector : Str
  describe : Str → Str
  handler : ElementHandler

def scriptSelector : Str := ascii "script[src]"

def pixelSelector : Str := ascii "img[width=\"1\"][height=\"1\"]"

def headSelector : Str := ascii "head"

def maxCosmeticSelectorsPerRewrite : Nat := 1024

namespace BodyRewritePlan

variable (plan : BodyRewritePlan)

/-- The cosmetic selectors of a rewrite: scoped ones first, then manual and global ones, up to the
cap. -/
def cosmeticSelectors : List Str :=
  (plan.domainRemoveSelectors.flatten ++ plan.manualRemoveSelectors ++
    plan.filterRemoveSelectors).take maxCosmeticSelectorsPerRewrite

/-- Rules that hide the injected selectors. -/
def injectCss : Str :=
  plan.cssInjectSelectors.flatMap (· ++ ascii "\x7bdisplay:none!important\x7d")

/-- Everything that is parsed for a rewrite, in order.  The head is asked for when there is a
cosmetic selector or something to inject. -/
def selectorRequests : List SelectorRequest :=
  (if plan.manualScriptPatterns ≠ [] ∨ plan.filterScriptPatterns ≠ [] then
      [⟨scriptSelector, id, .removeScripts plan.manualScriptPatterns plan.filterScriptPatterns⟩]
    else []) ++
  (if plan.stripTrackingPixels then
      [⟨pixelSelector, (ascii "pixel selector error: " ++ ·), .removePixels⟩]
    else []) ++
  plan.cosmeticSelectors.map (fun selector => ⟨selector, id, .removeCosmetic⟩) ++
  (if plan.cosmeticSelectors ≠ [] ∨ plan.cssInjectSelectors ≠ [] then
      [⟨headSelector, id, .prependStyle plan.injectCss⟩]
    else [])

end BodyRewritePlan

section Rewrite

variable {lib : HtmlLibrary}

def parseRequests (cache : SelectorCache lib) :
    List SelectorRequest → Except Str (List (Str × ElementHandler)) × SelectorCache lib
  | [] => (.ok [], cache)
  | request :: requests =>
      match parseSelectorCached cache request.selector with
      | (.error error, cache) => (.error (request.describe error), cache)
      | (.ok _, cache) =>
          match parseRequests cache requests with
          | (.error error, cache) => (.error error, cache)
          | (.ok pairs, cache) => (.ok ((request.selector, request.handler) :: pairs), cache)

/-- The rewritten body and the cache behind the rewrite. -/
def rewriteHtmlBody (cache : SelectorCache lib) (body : Bytes) (plan : BodyRewritePlan) :
    Except Str (Bytes × BodyRewriteDetails) × SelectorCache lib :=
  match parseRequests cache plan.selectorRequests with
  | (.error error, cache) => (.error error, cache)
  | (.ok pairs, cache) => (lib.run pairs body, cache)

/-- Requests for selectors that parse are all granted. -/
theorem parseRequests_fst (cache : SelectorCache lib) {requests : List SelectorRequest}
    (accepted : ∀ request ∈ requests, lib.isSelector request.selector = true) :
    (parseRequests cache requests).1 =
      .ok (requests.map fun request => (request.selector, request.handler)) := by
  induction requests generalizing cache with
  | nil => rfl
  | cons request requests ih =>
      obtain ⟨here, rest⟩ := List.forall_mem_cons.mp accepted
      have answer := parseSelectorCached_fst cache request.selector
      rw [parseSelector_of_isSelector here] at answer
      rw [parseRequests]
      cases parsed : parseSelectorCached cache request.selector with
      | mk result cache' =>
          rw [parsed] at answer
          subst answer
          have later := ih cache' rest
          dsimp only [Except.mapError]
          cases behind : parseRequests cache' requests with
          | mk result cache'' =>
              rw [behind] at later
              subst later
              rfl

theorem rewriteHtmlBody_fst (cache : SelectorCache lib) (body : Bytes) {plan : BodyRewritePlan}
    (accepted : ∀ request ∈ plan.selectorRequests, lib.isSelector request.selector = true) :
    (rewriteHtmlBody cache body plan).1 =
      lib.run (plan.selectorRequests.map fun request => (request.selector, request.handler))
        body := by
  have granted := parseRequests_fst cache accepted
  rw [rewriteHtmlBody]
  cases parsed : parseRequests cache plan.selectorRequests with
  | mk result cache' =>
      rw [parsed] at granted
      subst granted
      rfl

end Rewrite

/-! ## The selectors of a plan -/

/-- Selectors of parsed lines have been accepted. -/
theorem isSelector_of_parsed {isSelector : Str → Bool} {texts : List Str} {rule : ParsedRule}
    {selector : Str}
    (mem : rule ∈ (texts.map (parseFilterList isSelector)).flatMap Prod.fst)
    (names : rule.selector = some selector) : isSelector selector = true := by
  obtain ⟨result, mem, listed⟩ := List.mem_flatMap.mp mem
  obtain ⟨text, -, rfl⟩ := List.mem_map.mp mem
  rw [parseFilterList_rules] at listed
  obtain ⟨line, -, parses⟩ := List.mem_filterMap.mp listed
  exact isSelector_of_parseLine parses names

section Plan

variable {isSelector : Str → Bool} {cfg : PolicyConfig} {texts : List Str} {host selector : Str}

/-- The cosmetic selectors of a plan have been checked with the configuration or with the lists. -/
theorem isSelector_of_cosmetic (accepted : cfg.Accepted isSelector)
    (mem : selector ∈ ((PolicyEngine.withLists { cfg } isSelector texts).planForBodyRewrite
      host).cosmeticSelectors) : isSelector selector = true := by
  have listed := List.mem_of_mem_take mem
  rw [List.mem_append, List.mem_append] at listed
  rcases listed with (from_domain | manual) | global
  · by_cases active : cfg.mode = .disabled
    · simp [PolicyEngine.planForBodyRewrite, PolicyEngine.withLists,
        PolicyEngine.replaceFilterListRules, active] at from_domain
    · rw [PolicyEngine.domainRemoveSelectors_eq active] at from_domain
      obtain ⟨selectors, mem, listed⟩ := List.mem_flatten.mp from_domain
      obtain ⟨domain, -, found⟩ := List.mem_filterMap.mp mem
      have rule := ((aggregateRules_entry _ found).2 selector).mp listed
      exact isSelector_of_parsed rule rfl
  · by_cases enabled : cfg.bodyRewrite.enabled = true
    · have within : selector ∈ cfg.bodyRewrite.removeSelectors := by
        simpa [PolicyEngine.planForBodyRewrite, PolicyEngine.withLists,
          PolicyEngine.replaceFilterListRules, enabled] using manual
      exact (PolicyConfig.bodyRewrite_of_valid accepted.valid enabled).2 selector within
    · simp [PolicyEngine.planForBodyRewrite, PolicyEngine.withLists,
        PolicyEngine.replaceFilterListRules, enabled] at manual
  · by_cases active : cfg.mode = .disabled
    · simp [PolicyEngine.planForBodyRewrite, PolicyEngine.withLists,
        PolicyEngine.replaceFilterListRules, active] at global
    · have within : selector ∈ (aggregateRules
          (texts.map (parseFilterList isSelector))).cosmeticSelectors := by
        simpa [PolicyEngine.planForBodyRewrite, PolicyEngine.withLists,
          PolicyEngine.replaceFilterListRules, active] using global
      exact isSelector_of_parsed (((aggregateRules_selectors _).2 selector).mp within) rfl

end Plan

/-- With an accepted configuration in any mode and any filter lists, every selector that a rewrite
parses is accepted, so the outcome of a rewrite is that of its pass over the body. -/
theorem rewrite_selectors_parse (lib : HtmlLibrary) (script : lib.isSelector scriptSelector = true)
    (pixel : lib.isSelector pixelSelector = true) (head : lib.isSelector headSelector = true)
    {cfg : PolicyConfig} (accepted : cfg.Accepted lib.isSelector) (texts : List Str) (host : Str) :
    let plan := (PolicyEngine.withLists { cfg } lib.isSelector texts).planForBodyRewrite host
    (∀ request ∈ plan.selectorRequests, lib.isSelector request.selector = true ∧
      ∀ cache : SelectorCache lib, (parseSelectorCached cache request.selector).1 = .ok ()) ∧
    ∀ (cache : SelectorCache lib) (body : Bytes), (rewriteHtmlBody cache body plan).1 =
      lib.run (plan.selectorRequests.map fun request => (request.selector, request.handler))
        body := by
  intro plan
  have each : ∀ request ∈ plan.selectorRequests, lib.isSelector request.selector = true := by
    intro request mem
    simp only [BodyRewritePlan.selectorRequests, List.mem_append] at mem
    rcases mem with ((mem | mem) | mem) | mem
    · split at mem
      · cases List.mem_singleton.mp mem
        exact script
      · cases mem
    · split at mem
      · cases List.mem_singleton.mp mem
        exact pixel
      · cases mem
    · obtain ⟨selector, listed, rfl⟩ := List.mem_map.mp mem
      exact isSelector_of_cosmetic accepted listed
    · split at mem
      · cases List.mem_singleton.mp mem
        exact head
      · cases mem
  refine ⟨fun request mem => ⟨each request mem, fun cache => ?_⟩,
    fun cache body => rewriteHtmlBody_fst cache body each⟩
  rw [parseSelectorCached_fst, parseSelector_of_isSelector (each request mem)]
  rfl

namespace SelectorExample

/-- A library that refuses the empty selector and leaves every body as it is. -/
def lib : HtmlLibrary where
  parseSelector selector :=
    if selector = [] then .error (ascii "empty selector") else .ok ()
  write _ _ := .ok ()
  finish _ body := .ok (body, ⟨0, 0, 0, 0⟩)

def value : Json :=
  .object [
    (ascii "version", .number (.posInt 1)),
    (ascii "mode", .string (ascii "enforce")),
    (ascii "rules", .object [
      (ascii "tracker_set_cookie", .object [
        (ascii "enabled", .bool false),
        (ascii "domains", .array [])]),
      (ascii "body_rewrite", .object [
        (ascii "enabled", .bool true),
        (ascii "remove_selectors", .array [.string (ascii "ins.ads")])])])]

def cfg : PolicyConfig :=
  { PolicyConfig.defaultForMode .enforce with
    trackerSetCookie := { enabled := false, domains := [] }
    bodyRewrite := { enabled := true, removeSelectors := [ascii "ins.ads"] } }

def plan : BodyRewritePlan :=
  (PolicyEngine.withLists { cfg } lib.isSelector
    [ascii "example.com##.banner", ascii "##.popup"]).planForBodyRewrite (ascii "www.example.com")

end SelectorExample

theorem sample_rewrite_succeeds :
    SelectorExample.plan.cosmeticSelectors = [ascii ".banner", ascii "ins.ads", ascii ".popup"] ∧
      (rewriteHtmlBody (.empty : SelectorCache SelectorExample.lib) (ascii "<p>")
        SelectorExample.plan).1 = .ok (ascii "<p>", ⟨0, 0, 0, 0⟩) := by
  refine ⟨by decide +kernel, ?_⟩
  exact (rewrite_selectors_parse SelectorExample.lib rfl rfl rfl
    (@PolicyConfig.Accepted.read _ SelectorExample.value SelectorExample.cfg rfl)
    [ascii "example.com##.banner", ascii "##.popup"] (ascii "www.example.com")).2 .empty _

end PrivacyEngine
