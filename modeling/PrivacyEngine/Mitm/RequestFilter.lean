import PrivacyEngine.Mitm.RelayRun
import PrivacyEngine.Mitm.RequestHead

/-!
# The filters of the first request together

The relay applies up to three filters to its first client read, one behind the other.  On a read
that holds a whole head they act on the lines of the head.  No filter undoes another: the read is
forwarded as received exactly when none of the enabled filters applies to it.
-/

namespace PrivacyEngine

open Wire

/-- A filter that only acts when it is enabled. -/
def onlyIf {α : Type*} (enabled : Bool) (filter : α → α) (x : α) : α :=
  if enabled then filter x else x

/-- Filters that keep a relation keep it when both are enabled or neither is. -/
theorem onlyIf_keeps {α β : Type*} {related : α → β → Prop} {filter : α → α} {filter' : β → β}
    (kept : ∀ {x y}, related x y → related (filter x) (filter' y)) (enabled : Bool) {x : α} {y : β}
    (start : related x y) : related (onlyIf enabled filter x) (onlyIf enabled filter' y) := by
  cases enabled with
  | false => exact start
  | true => exact kept start

/-- An enabled filter that keeps a value or makes it smaller still does so when it is optional. -/
theorem onlyIf_cases {α : Type*} {size : α → Nat} {filter : α → α} {x : α} {n : Nat}
    (enabled : Bool) (changes : filter x = x ∨ size (filter x) < n) :
    onlyIf enabled filter x = x ∨ size (onlyIf enabled filter x) < n := by
  cases enabled with
  | false => exact .inl rfl
  | true => exact changes

theorem onlyIf_eq_self {α : Type*} {enabled : Bool} {filter : α → α} {x : α}
    (kept : enabled = true → filter x = x) : onlyIf enabled filter x = x := by
  cases enabled with
  | false => rfl
  | true => exact kept rfl

/-- A request filter as a total function: a buffer it does not apply to is kept. -/
def applied (filter : Bytes → Option Bytes) (buf : Bytes) : Bytes := (filter buf).getD buf

theorem applied_eq_self {filter : Bytes → Option Bytes} {buf : Bytes}
    (unchanged : filter buf = none) :
    applied filter buf = buf := by
  rw [applied, unchanged, Option.getD_none]

theorem eq_none_of_applied {filter : Bytes → Option Bytes} {buf : Bytes}
    (shortens : ∀ {out}, filter buf = some out → out.length < buf.length)
    (same : applied filter buf = buf) : filter buf = none := by
  cases applies : filter buf with
  | none => rfl
  | some out =>
      have shorter := shortens applies
      rw [applied, applies, Option.getD_some] at same
      rw [same] at shorter
      exact absurd shorter (lt_irrefl _)

namespace RelayEnv

variable (env : RelayEnv)

/-- What is forwarded for the first client read. -/
def forwarded (buf : Bytes) : Bytes := (env.filterRequest buf).1.getD buf

/-- The lines of a head as the enabled filters leave them. -/
def filteredLines (lines : List Str) : List Str :=
  onlyIf env.sessionPlan.trackerMatch dropConditional
    (onlyIf env.rewritePlan.queryParamStrip stripTarget
      (onlyIf env.rewritePlan.refererSpoof spoofReferer lines))

/-- No enabled filter changes the buffer. -/
structure LeavesRequest (buf : Bytes) : Prop where
  referer : env.rewritePlan.refererSpoof = true → applied injectGoogleReferer buf = buf
  query : env.rewritePlan.queryParamStrip = true → stripTrackingQueryParams buf = none
  cache : env.sessionPlan.trackerMatch = true → stripCacheRequestHeaders buf = none

theorem filterStep_getD (buf : Bytes) (enabled : Bool) (filter : Bytes → Option Bytes)
    (event : LogEvent) (entry : Receipt) (counter : Metric) (before : Option Bytes × List Effect) :
    (env.filterStep buf enabled filter event entry counter before).1.getD buf =
      onlyIf enabled (applied filter) (before.1.getD buf) := by
  unfold filterStep
  cases enabled with
  | false => rfl
  | true => cases applies : filter (before.1.getD buf) <;> simp [onlyIf, applied, applies]

/-- The filters act one behind the other. -/
theorem forwarded_eq (buf : Bytes) :
    env.forwarded buf =
      onlyIf env.sessionPlan.trackerMatch (applied stripCacheRequestHeaders)
        (onlyIf env.rewritePlan.queryParamStrip (applied stripTrackingQueryParams)
          (onlyIf env.rewritePlan.refererSpoof (applied injectGoogleReferer) buf)) := by
  simp only [forwarded, filterRequest, filterStep_getD, Option.getD_none]

theorem forwarded_invalid {buf : Bytes} (invalid : Utf8.valid buf = false) :
    env.forwarded buf = buf := by
  have undecoded : fromUtf8 buf = none := by simp [fromUtf8, invalid]
  have no_referer : injectGoogleReferer buf = none := by
    simp [injectGoogleReferer, cutHead, undecoded]
  have no_query : stripTrackingQueryParams buf = none := by
    simp [stripTrackingQueryParams, undecoded]
  have no_cache : stripCacheRequestHeaders buf = none := by
    simp [stripCacheRequestHeaders, cutHead, undecoded]
  simp [forwarded_eq, onlyIf, applied, no_referer, no_query, no_cache]

variable {env} {lines : List Str} {body : Bytes}

/-- A well-formed buffer that holds a head with the given lines. -/
structure HoldsHead (body buf : Bytes) (lines : List Str) : Prop where
  eq : buf = closeHeaders lines ++ body
  head : IsHead lines
  valid : ∀ line ∈ lines, Utf8.valid line = true
  body_valid : Utf8.valid body = true

namespace HoldsHead

variable {buf : Bytes}

theorem buf_valid (holds : HoldsHead body buf lines) :
    Utf8.valid (closeHeaders lines ++ body) = true :=
  (valid_closeHeaders holds.head.ne_nil body).mpr ⟨holds.valid, holds.body_valid⟩

theorem referer (holds : HoldsHead body buf lines) :
    HoldsHead body (applied injectGoogleReferer buf) (spoofReferer lines) where
  eq := by rw [applied, holds.eq, injectGoogleReferer_head holds.head holds.buf_valid]; rfl
  head := holds.head.spoofReferer
  valid := valid_spoofReferer holds.valid
  body_valid := holds.body_valid

theorem query (holds : HoldsHead body buf lines) :
    HoldsHead body (applied stripTrackingQueryParams buf) (stripTarget lines) where
  eq := by rw [applied, holds.eq, stripTrackingQueryParams_head holds.head holds.buf_valid]
  head := holds.head.stripTarget
  valid := valid_stripTarget holds.valid
  body_valid := holds.body_valid

theorem cache (holds : HoldsHead body buf lines) :
    HoldsHead body (applied stripCacheRequestHeaders buf) (dropConditional lines) where
  eq := by rw [applied, holds.eq, stripCacheRequestHeaders_head holds.head holds.buf_valid]
  head := holds.head.dropConditional
  valid := valid_dropConditional holds.valid
  body_valid := holds.body_valid

/-- The filters of the relay keep a head in front of the same body. -/
theorem forwarded (holds : HoldsHead body buf lines) :
    HoldsHead body (env.forwarded buf) (env.filteredLines lines) := by
  rw [forwarded_eq, filteredLines]
  apply onlyIf_keeps cache
  apply onlyIf_keeps query
  apply onlyIf_keeps referer
  exact holds

end HoldsHead

theorem holdsHead_of_valid (head : IsHead lines)
    (valid : Utf8.valid (closeHeaders lines ++ body) = true) :
    HoldsHead body (closeHeaders lines ++ body) lines :=
  have parts := (valid_closeHeaders head.ne_nil body).mp valid
  ⟨rfl, head, parts.1, parts.2⟩

/-! ## Unchanged requests -/

/-- Behind a spoofed Referer the other filters restore nothing. -/
theorem filteredLines_eq_self (head : IsHead lines) (spoofs : env.rewritePlan.refererSpoof = true)
    (same : env.filteredLines lines = lines) :
    spoofReferer lines = lines ∧ onlyIf env.rewritePlan.queryParamStrip stripTarget lines = lines ∧
      onlyIf env.sessionPlan.trackerMatch dropConditional lines = lines := by
  have spoofed_length := otherLength_spoofReferer lines
  have stripped_cases := onlyIf_cases env.rewritePlan.queryParamStrip
    (stripTarget_spoofReferer_cases lines)
  have stripped_ne :
      onlyIf env.rewritePlan.queryParamStrip stripTarget (spoofReferer lines) ≠ [] := by
    unfold onlyIf
    split
    · exact head.spoofReferer.stripTarget.ne_nil
    · exact head.spoofReferer.ne_nil
  rw [filteredLines, onlyIf.eq_def env.rewritePlan.refererSpoof, if_pos spoofs] at same
  generalize stripped_eq : onlyIf env.rewritePlan.queryParamStrip stripTarget (spoofReferer lines) =
    stripped at same stripped_cases stripped_ne
  have dropped_cases := onlyIf_cases env.sessionPlan.trackerMatch
    (dropConditional_cases stripped stripped_ne)
  rw [same] at dropped_cases
  have spoofed : stripped = lines ∧ spoofReferer lines = lines := by
    rcases dropped_cases with rfl | dropped
    · rcases stripped_cases with kept | shorter
      · exact ⟨rfl, kept.symm⟩
      · exact absurd shorter (lt_irrefl _)
    · rcases stripped_cases with rfl | shorter <;> omega
  obtain ⟨rfl, spoofed⟩ := spoofed
  rw [spoofed] at stripped_eq
  exact ⟨spoofed, stripped_eq, same⟩

theorem exists_holdsHead {buf : Bytes} (decodes : (cutHead buf).isSome = true) :
    ∃ lines body, HoldsHead body buf lines := by
  obtain ⟨cut, cut_eq⟩ := Option.isSome_iff_exists.mp decodes
  simp only [cutHead, fromUtf8, Option.bind_eq_bind, Option.bind_eq_some_iff,
    Option.ite_none_right_eq_some, Option.some.injEq] at cut_eq
  obtain ⟨_, ⟨valid, rfl⟩, headerEnd, found, -⟩ := cut_eq
  obtain ⟨lines, body, head, rfl, -⟩ := exists_isHead found
  exact ⟨lines, body, holdsHead_of_valid head valid⟩

/-- The Referer filter keeps the first read whenever the filters together do. -/
theorem referer_of_forwarded {buf : Bytes} (same : env.forwarded buf = buf) :
    onlyIf env.rewritePlan.refererSpoof (applied injectGoogleReferer) buf = buf := by
  cases spoofs : env.rewritePlan.refererSpoof with
  | false => rfl
  | true =>
      cases decodes : (cutHead buf).isSome with
      | false =>
          rw [Option.isSome_eq_false_iff, Option.isNone_iff_eq_none] at decodes
          simp [onlyIf, applied, injectGoogleReferer, decodes]
      | true =>
          obtain ⟨lines, body, holds⟩ := exists_holdsHead decodes
          have filtered : HoldsHead body (env.forwarded buf) (env.filteredLines lines) :=
            holds.forwarded
          have same_lines : closeHeaders (env.filteredLines lines) ++ body =
              closeHeaders lines ++ body := by
            rw [← filtered.eq, ← holds.eq, same]
          have unchanged := (filtered.head.unique holds.head same_lines).1
          have spoofed := (filteredLines_eq_self holds.head spoofs unchanged).1
          have shown := holds.referer.eq
          rw [spoofed, ← holds.eq] at shown
          exact shown

/-- An optional filter that can only shorten keeps the length exactly when it does not apply. -/
theorem length_onlyIf_applied {filter : Bytes → Option Bytes} {buf : Bytes} (enabled : Bool)
    (shortens : ∀ {out}, filter buf = some out → out.length < buf.length) :
    (onlyIf enabled (applied filter) buf).length ≤ buf.length ∧
      ((onlyIf enabled (applied filter) buf).length = buf.length →
        enabled = true → filter buf = none) := by
  cases enabled with
  | false => exact ⟨le_rfl, fun _ disabled => absurd disabled Bool.false_ne_true⟩
  | true =>
      simp only [onlyIf, if_true, applied, true_imp_iff]
      cases applies : filter buf with
      | none => simp
      | some out =>
          have shorter := shortens applies
          rw [Option.getD_some]
          exact ⟨shorter.le, fun same => absurd same shorter.ne⟩

/-- The first read is forwarded as received exactly when no enabled filter changes it. -/
theorem forwarded_eq_self_iff (buf : Bytes) : env.forwarded buf = buf ↔ env.LeavesRequest buf := by
  constructor
  · intro same
    have spoofed := referer_of_forwarded same
    rw [forwarded_eq, spoofed] at same
    have query_length := @length_onlyIf_applied stripTrackingQueryParams buf
      env.rewritePlan.queryParamStrip length_stripTrackingQueryParams
    generalize stripped_eq :
      onlyIf env.rewritePlan.queryParamStrip (applied stripTrackingQueryParams)
      buf = stripped at same query_length
    have cache_length := @length_onlyIf_applied stripCacheRequestHeaders stripped
      env.sessionPlan.trackerMatch length_stripCacheRequestHeaders
    rw [same] at cache_length
    have unstripped := query_length.2 (le_antisymm query_length.1 cache_length.1)
    obtain rfl : stripped = buf := by
      rw [← stripped_eq]
      exact onlyIf_eq_self fun strips => applied_eq_self (unstripped strips)
    refine ⟨fun spoofs => ?_, unstripped, cache_length.2 rfl⟩
    simpa [onlyIf, spoofs] using spoofed
  · intro leaves
    rw [forwarded_eq, onlyIf_eq_self leaves.referer,
      onlyIf_eq_self fun strips => applied_eq_self (leaves.query strips)]
    exact onlyIf_eq_self fun tracked => applied_eq_self (leaves.cache tracked)

end RelayEnv

end PrivacyEngine
