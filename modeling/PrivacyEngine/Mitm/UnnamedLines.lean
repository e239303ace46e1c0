import PrivacyEngine.Mitm.CacheFields
import PrivacyEngine.Mitm.CookieLeak

/-!
# Lines that the policy does not name

Every path of the relay drops lines by field name.  A line of another field is in the block that is
sent, byte for byte and in its place, unless the Set-Cookie filter cuts it at a bare line feed or a
rebuilding path decodes a byte that is not UTF-8.
-/

namespace PrivacyEngine

open Wire Reactive

/-! ## Rebuilding a block from its decoded lines -/

/-- A block rebuilt from decoded lines: the lines of the other fields stay, and every line is a
decoded one. -/
structure Rebuilt (named : List Str) (before after : Bytes) : Prop where
  keeps : (withoutFields named (nonEmptyLines before)).Sublist (splitCrlf after)
  decoded : ∀ line ∈ splitCrlf after, Utf8.valid line = true
  no_lf : (∀ line ∈ splitCrlf before, 10 ∉ line) → ∀ line ∈ splitCrlf after, 10 ∉ line

/-- A decoded line is well-formed, and has a line feed only if the line it was decoded from has. -/
theorem decoded_of_mem_nonEmptyLines {block : Bytes} {line : Str}
    (mem : line ∈ nonEmptyLines block) :
    PairFree 13 10 line ∧ Utf8.valid line = true ∧
      ∃ raw ∈ splitCrlf block, 10 ∈ line → 10 ∈ raw := by
  have inside := (List.mem_filter.mp mem).1
  refine ⟨pairFree_of_mem_splitPair inside, ?_⟩
  rw [splitCrlf, splitPair_lossy] at inside
  obtain ⟨raw, raw_mem, rfl⟩ := List.mem_map.mp inside
  refine ⟨Utf8.valid_lossy raw, raw, raw_mem, fun lf => ?_⟩
  obtain ⟨front, back, cut⟩ := List.append_of_mem lf
  obtain ⟨front₀, back₀, rfl, -, -⟩ := Utf8.lossy_reflects_ascii (by decide) cut
  simp

theorem rebuilt_closeHeaders {named : List Str} {before : Bytes} {lines : List Str}
    {extra : List Str}
    (lines_eq : lines = withoutFields named (nonEmptyLines before) ++ extra)
    (plain : ∀ line ∈ extra, (∀ b ∈ line, b < 0x80) ∧ 10 ∉ line) :
    Rebuilt named before (closeHeaders lines) := by
  have valid_of_ascii : ∀ {line : Str}, (∀ b ∈ line, b < 0x80) → Utf8.valid line = true :=
    fun all => Utf8.lossy_eq_self_iff.mp (lossy_of_ascii all)
  have origin : ∀ line ∈ lines, line ∈ nonEmptyLines before ∨ line ∈ extra := by
    intro line mem
    rw [lines_eq] at mem
    exact (List.mem_append.mp mem).imp_left fun kept => (List.mem_filter.mp kept).1
  have free : ∀ line ∈ lines, PairFree 13 10 line := by
    intro line mem
    rcases origin line mem with inside | added
    · exact (decoded_of_mem_nonEmptyLines inside).1
    · rw [pairFree_iff]
      rintro left right rfl
      exact (plain _ added).2 (by simp)
  obtain ⟨keeps, only⟩ := splitCrlf_closeHeaders free
  refine ⟨?_, fun line mem => ?_, fun no_lf line mem => ?_⟩
  · refine List.Sublist.trans ?_ keeps
    rw [lines_eq]
    exact List.sublist_append_left _ _
  · rcases only line mem with inside | rfl
    · rcases origin line inside with kept | added
      · exact (decoded_of_mem_nonEmptyLines kept).2.1
      · exact valid_of_ascii (plain line added).1
    · rfl
  · rcases only line mem with inside | rfl
    · rcases origin line inside with kept | added
      · obtain ⟨-, -, raw, raw_mem, lf⟩ := decoded_of_mem_nonEmptyLines kept
        exact fun has => no_lf raw raw_mem (lf has)
      · exact (plain line added).2
    · simp

theorem rebuilt_of_cacheStripped {before after : Bytes}
    (strips : cacheStrippedHeaders before = some after) :
    Rebuilt cacheTrackingFields before after := by
  obtain ⟨-, rfl⟩ := cacheStrippedHeaders_eq_some strips
  exact rebuilt_closeHeaders (List.append_nil _).symm (by simp)

/-- Fields that a new framing removes, besides the ones given. -/
theorem rebuilt_reframe (dropped : List Str) (before : Bytes) (bodyLen : Nat) :
    Rebuilt (dropped ++ bodyIntegrityFields) before (reframe dropped before bodyLen) := by
  have no_lf : 10 ∉ lengthLine bodyLen := by
    rw [lengthLine, List.mem_append, not_or]
    refine ⟨by decide, fun mem => ?_⟩
    exact absurd (decimal_digit mem).1 (by decide)
  refine rebuilt_closeHeaders ?_ (List.forall_mem_singleton.mpr ⟨lengthLine_ascii bodyLen, no_lf⟩)
  congr 1
  rw [stripBodyIntegrityHeaders, withoutFields, withoutFields, withoutFields, List.filter_filter]
  refine List.filter_congr fun line _ => ?_
  rw [namesField, namesField, namesField, List.any_append, Bool.not_or, Bool.and_comm]

/-- Well-formed lines of other fields stay where they are. -/
theorem Rebuilt.passes {named : List Str} {before after : Bytes}
    (rebuilt : Rebuilt named before after)
    {lines : List Bytes} (passed : lines.Sublist (splitCrlf before))
    (filled : ∀ line ∈ lines, line ≠ []) (unnamed : ∀ line ∈ lines, namesField named line = false)
    (well_formed : ∀ line ∈ lines, Utf8.valid line = true) : lines.Sublist (splitCrlf after) := by
  refine List.Sublist.trans ?_ rebuilt.keeps
  have same : lines.map Utf8.lossy = lines := by
    refine Eq.trans (List.map_congr_left fun line mem => ?_) (List.map_id _)
    exact Utf8.lossy_of_valid (well_formed line mem)
  have decoded := passed.map Utf8.lossy
  rw [same, splitCrlf, ← splitPair_lossy] at decoded
  have all_filled : lines.filter (· ≠ []) = lines :=
    List.filter_eq_self.mpr fun line mem => by simpa using filled line mem
  have all_unnamed : lines.filter (!namesField named ·) = lines :=
    List.filter_eq_self.mpr fun line mem => by simpa using unnamed line mem
  have kept := (decoded.filter (· ≠ [])).filter (!namesField named ·)
  rwa [all_filled, all_unnamed] at kept

/-! ## The Set-Cookie filter -/

/-- The filter sees the pieces of every line, and an empty one in front of the last line end. -/
theorem headerLines_of_terminated {block : Bytes}
    (terminated : findHeadersEnd block = some block.length) :
    ∃ lines, lines ≠ [] ∧ splitCrlf block = lines ++ [[], []] ∧
      headerLines block block.length = lines.flatMap linePieces ++ [[]] := by
  obtain ⟨front, rfl⟩ := crlfcrlf_suffix_of_terminated terminated
  have front_ne := splitPair_ne_nil 13 10 front
  refine ⟨splitPair 13 10 front, front_ne, ?_, ?_⟩
  · have cut := splitPair_cut (show (13 : UInt8) ≠ 10 by decide) front [13, 10]
    simpa [splitCrlf, crlfcrlf, splitPair] using cut
  · have closed := closeHeaders_eq_flatMap (splitPair 13 10 front) front_ne
    rw [closeHeaders, joinCrlf, joinPair_splitPair] at closed
    have taken : (front ++ crlfcrlf).take ((front ++ crlfcrlf).length - 2) =
        (splitPair 13 10 front).flatMap (· ++ crlf) := by
      rw [closed, List.length_append, show crlf.length = 2 from rfl, Nat.add_sub_cancel,
        List.take_left]
    rw [headerLines, taken, map_stripTrailingCr_closed]

/-- Elements that a map keeps as they are stay where they are. -/
theorem filter_sublist_flatMap {α : Type} {keep : α → Bool} {pieces : α → List α} {l : List α}
    (same : ∀ x ∈ l, keep x = true → pieces x = [x]) :
    (l.filter keep).Sublist (l.flatMap pieces) := by
  induction l with
  | nil => exact List.nil_sublist _
  | cons x l ih =>
      have later := ih fun y mem => same y (List.mem_cons_of_mem _ mem)
      rw [List.flatMap_cons, List.filter_cons]
      split
      · rename_i kept
        rw [same x List.mem_cons_self kept]
        exact later.cons_cons x
      · exact later.trans (List.sublist_append_right _ _)

namespace RelayEnv

variable (env : RelayEnv)

/-- The Set-Cookie filter removes lines. -/
def FiltersCookies : Prop :=
  env.policyEngine.cfg.mode = .enforce ∧ env.sessionPlan.enableHttp1SetCookieFilter = true

instance FiltersCookies.decidable : Decidable env.FiltersCookies := instDecidableAnd

/-- Framings under which the relay sends a block. -/
inductive SendPath where
  | filtered
  | sized (bodyLen : Nat)
  | unchunked (bodyLen : Nat)

namespace SendPath

def frame : SendPath → Bytes → Bytes
  | filtered, block => block
  | sized bodyLen, block => replaceContentLength block bodyLen
  | unchunked bodyLen, block => replaceChunkedWithContentLength block bodyLen

/-- Fields that a framing removes or replaces. -/
def fields : SendPath → List Str
  | filtered => []
  | sized _ => [contentLengthField] ++ bodyIntegrityFields
  | unchunked _ => [ascii "transfer-encoding:", contentLengthField] ++ bodyIntegrityFields

end SendPath

/-- Fields that are removed or replaced on a path. -/
def namedFields (path : SendPath) : List Str :=
  (if env.FiltersCookies then [setCookieField] else []) ++
    (if env.sessionPlan.trackerMatch then cacheTrackingFields else []) ++ path.fields

/-- The header lines of a block whose fields are not named: behind the status line and not empty. -/
def unnamedLines (block : Bytes) (path : SendPath) : List Bytes :=
  (splitCrlf block).tail.filter fun line =>
    line ≠ [] && !namesField (env.namedFields path) line

def sentOn (block : Bytes) (path : SendPath) : Bytes := path.frame (env.outputHeaders block)

/-- Every unnamed line is sent, byte for byte and in the order received. -/
def PassesUnnamed (block : Bytes) (path : SendPath) : Prop :=
  (env.unnamedLines block path).Sublist (splitCrlf (env.sentOn block path))

/-- The lines among which the cache fields are looked for. -/
def scannedLines (block : Bytes) : List Bytes :=
  if env.FiltersCookies then headerLines block block.length else splitCrlf block

/-- The path decodes the block and puts it together again. -/
def Decodes (block : Bytes) (path : SendPath) : Prop :=
  path.fields ≠ [] ∨ env.sessionPlan.trackerMatch = true ∧
    ∃ line ∈ env.scannedLines block, namesField cacheTrackingFields line = true

/-- The unnamed lines are of the kind that the path does not change. -/
structure Harmless (block : Bytes) (path : SendPath) : Prop where
  uncut : env.FiltersCookies → ∀ line ∈ env.unnamedLines block path, 10 ∉ line
  well_formed : env.Decodes block path →
    ∀ line ∈ env.unnamedLines block path, Utf8.valid line = true

section Paths

variable {env : RelayEnv} {block : Bytes} {path : SendPath}

theorem namesField_append (fields more : List Str) (line : Str) :
    namesField (fields ++ more) line = (namesField fields line || namesField more line) :=
  List.any_append

theorem mem_unnamedLines {line : Bytes} (mem : line ∈ env.unnamedLines block path) :
    line ≠ [] ∧ (env.FiltersCookies → startsWithLower line setCookieField = false) ∧
      (env.sessionPlan.trackerMatch = true → namesField cacheTrackingFields line = false) ∧
      namesField path.fields line = false := by
  have kept := (List.mem_filter.mp mem).2
  simp only [Bool.and_eq_true, decide_eq_true_eq, namedFields, namesField_append, Bool.not_or,
    Bool.not_eq_true'] at kept
  obtain ⟨filled, ⟨not_cookie, not_cache⟩, not_framing⟩ := kept
  refine ⟨filled, fun filtering => ?_, fun tracker => ?_, not_framing⟩
  · rw [if_pos filtering] at not_cookie
    simpa [namesField] using not_cookie
  · rwa [if_pos tracker] at not_cache

theorem headerOutcome_unfiltered (unfiltered : ¬ env.FiltersCookies) (block : Bytes) :
    (env.headerOutcome block).outputHeaders = block := by
  by_cases filtering : env.sessionPlan.enableHttp1SetCookieFilter = true
  · rcases env.policyEngine.outputHeaders_cases env.targetHost block env.sourceIp with
      unchanged | ⟨enforcing, -⟩
    · exact unchanged
    · exact absurd ⟨enforcing, filtering⟩ unfiltered
  · rw [sessionPlan, Bool.not_eq_true] at filtering
    simp [headerOutcome, PolicyEngine.applyHttp1ResponseHeaderPolicy, filtering,
      SessionPlan.untouched]

/-- The lines of a filtered block. -/
theorem splitCrlf_filtered (filtering : env.FiltersCookies)
    (terminated : findHeadersEnd block = some block.length) :
    ∃ statusLine lines, headerLines block block.length = statusLine :: lines ∧
      splitCrlf (env.headerOutcome block).outputHeaders =
        statusLine :: lines.filter (!startsWithLower · setCookieField) ++ [[], []] := by
  obtain ⟨statusLine, lines, pieces, rebuilt⟩ :=
    headerOutcome_enforced filtering.1 filtering.2 terminated
  simp only [startsWithAsciiCaseInsensitive_eq] at rebuilt
  refine ⟨statusLine, lines, pieces, ?_⟩
  rw [rebuilt, rebuildHeaders_eq_joinCrlf]
  refine splitPair_joinPair (by decide) (by simp) fun line mem => ?_
  have no_lf : 10 ∉ line := by
    rcases List.mem_append.mp mem with kept | blank
    · refine @no_lf_headerLines block line block.length ?_
      rw [pieces]
      exact List.cons_subset_cons _ List.filter_sublist.subset kept
    · obtain rfl : line = [] := by simpa using blank
      simp
  rw [pairFree_iff]
  rintro left right rfl
  exact no_lf (by simp)

theorem no_lf_of_filtered (filtering : env.FiltersCookies)
    (terminated : findHeadersEnd block = some block.length) :
    ∀ line ∈ splitCrlf (env.headerOutcome block).outputHeaders, 10 ∉ line := by
  obtain ⟨statusLine, lines, pieces, split⟩ := splitCrlf_filtered filtering terminated
  rw [split]
  intro line mem
  rcases List.mem_append.mp mem with kept | blank
  · refine @no_lf_headerLines block line block.length ?_
    rw [pieces]
    exact List.cons_subset_cons _ List.filter_sublist.subset kept
  · obtain rfl : line = [] := by simpa using blank
    simp

/-- Behind the Set-Cookie filter the unnamed lines that have not been cut are still there. -/
theorem passes_headerOutcome (terminated : findHeadersEnd block = some block.length)
    (uncut : env.FiltersCookies → ∀ line ∈ env.unnamedLines block path, 10 ∉ line) :
    (env.unnamedLines block path).Sublist (splitCrlf (env.headerOutcome block).outputHeaders) := by
  by_cases filtering : env.FiltersCookies
  · obtain ⟨received, received_ne, block_lines, seen⟩ := headerLines_of_terminated terminated
    obtain ⟨statusLine, lines, pieces, split⟩ := splitCrlf_filtered filtering terminated
    cases received with
    | nil => exact absurd rfl received_ne
    | cons first received =>
        -- the unnamed lines are lines of their own for the filter
        have keep_eq : env.unnamedLines block path = received.filter fun line =>
            line ≠ [] && !namesField (env.namedFields path) line := by
          rw [unnamedLines, block_lines]
          simp [List.filter_append]
        have alone : (env.unnamedLines block path).Sublist (received.flatMap linePieces) := by
          rw [keep_eq]
          refine filter_sublist_flatMap fun line mem kept => linePieces_of_no_lf ?_
          refine uncut filtering line ?_
          rw [keep_eq]
          exact List.mem_filter.mpr ⟨mem, kept⟩
        have behind : (received.flatMap linePieces).Sublist lines := by
          have cut : linePieces first ++ (received.flatMap linePieces ++ [[]]) =
              statusLine :: lines := by
            rw [← pieces, seen, List.flatMap_cons, List.append_assoc]
          cases start : linePieces first with
          | nil => simp [linePieces, List.splitOn_ne_nil] at start
          | cons piece more =>
              rw [start, List.cons_append] at cut
              obtain ⟨-, rfl⟩ := List.cons.inj cut
              exact (List.sublist_append_left _ _).trans (List.sublist_append_right _ _)
        have not_cookie : (env.unnamedLines block path).filter (!startsWithLower · setCookieField) =
            env.unnamedLines block path :=
          List.filter_eq_self.mpr fun line mem => by simp [(mem_unnamedLines mem).2.1 filtering]
        have kept := (alone.trans behind).filter (!startsWithLower · setCookieField)
        rw [not_cookie] at kept
        rw [split]
        exact (kept.cons statusLine).trans (List.sublist_append_left _ _)
  · rw [headerOutcome_unfiltered filtering]
    exact List.filter_sublist.trans (List.tail_sublist _)

/-- The cache fields are looked for in the lines that the filter has left. -/
theorem noCacheFields_headerOutcome_iff (terminated : findHeadersEnd block = some block.length) :
    NoCacheFields (env.headerOutcome block).outputHeaders ↔
      ∀ line ∈ env.scannedLines block, namesField cacheTrackingFields line = false := by
  rw [NoCacheFields, scannedLines]
  by_cases filtering : env.FiltersCookies
  · obtain ⟨statusLine, lines, pieces, split⟩ := splitCrlf_filtered filtering terminated
    have other : ∀ line, namesField cacheTrackingFields line = true →
        startsWithLower line setCookieField = false := by
      intro line named
      obtain ⟨field, mem, starts⟩ := List.any_eq_true.mp named
      by_contra cookie
      rw [Bool.not_eq_false] at cookie
      have apart : ∀ field ∈ cacheTrackingFields,
          ¬ (field <+: setCookieField ∨ setCookieField <+: field) := by decide
      have field_first : field <+: toAsciiLowercase line := List.isPrefixOf_iff_prefix.mp starts
      have cookie_first : setCookieField <+: toAsciiLowercase line :=
        List.isPrefixOf_iff_prefix.mp cookie
      exact apart field mem (List.prefix_or_prefix_of_prefix field_first cookie_first)
    rw [if_pos filtering, pieces, split]
    constructor
    · intro free line mem
      by_contra named
      rw [Bool.not_eq_false] at named
      refine absurd (free line (List.mem_append_left _ ?_)) (by simp [named])
      rcases List.mem_cons.mp mem with rfl | later
      · exact List.mem_cons_self
      · exact List.mem_cons_of_mem _ (List.mem_filter.mpr ⟨later, by simp [other line named]⟩)
    · intro free line mem
      rcases List.mem_append.mp mem with kept | blank
      · exact free line (List.cons_subset_cons _ List.filter_sublist.subset kept)
      · obtain rfl : line = [] := by simpa using blank
        decide
  · rw [if_neg filtering, headerOutcome_unfiltered filtering]

/-- The cache fields are removed by rebuilding the block, when there are any. -/
theorem outputHeaders_rebuilt (terminated : findHeadersEnd block = some block.length) :
    (env.sessionPlan.trackerMatch = true ∧
        ∃ line ∈ env.scannedLines block, namesField cacheTrackingFields line = true) ∧
      Rebuilt cacheTrackingFields (env.headerOutcome block).outputHeaders
        (env.outputHeaders block) ∨
    ¬ (env.sessionPlan.trackerMatch = true ∧
        ∃ line ∈ env.scannedLines block, namesField cacheTrackingFields line = true) ∧
      env.outputHeaders block = (env.headerOutcome block).outputHeaders := by
  have clean_iff := @noCacheFields_headerOutcome_iff env block terminated
  rw [outputHeaders, strippedForTracker, headerOutcome_trackerMatch]
  by_cases tracker : env.sessionPlan.trackerMatch = true
  · rw [if_pos tracker]
    cases strips : cacheStrippedHeaders (env.headerOutcome block).outputHeaders with
    | none =>
        have clean := clean_iff.mp ((cacheStrippedHeaders_eq_none_iff _).mp strips)
        refine .inr ⟨fun both => ?_, rfl⟩
        obtain ⟨-, line, mem, named⟩ := both
        rw [clean line mem] at named
        cases named
    | some stripped =>
        refine .inl ⟨⟨tracker, ?_⟩, rebuilt_of_cacheStripped strips⟩
        by_contra none_named
        have clean := clean_iff.mpr fun line mem => by
          by_contra named
          exact none_named ⟨line, mem, by simpa using named⟩
        rw [← cacheStrippedHeaders_eq_none_iff, strips] at clean
        cases clean
  · rw [if_neg tracker]
    exact .inr ⟨fun both => tracker both.1, rfl⟩

/-- A framing leaves the policy's block alone or rebuilds it. -/
theorem SendPath.frame_rebuilt (path : SendPath) (headers : Bytes) :
    path.fields ≠ [] ∧ Rebuilt path.fields headers (path.frame headers) ∨
      path.fields = [] ∧ path.frame headers = headers := by
  cases path with
  | filtered => exact .inr ⟨rfl, rfl⟩
  | sized bodyLen => exact .inl ⟨List.cons_ne_nil _ _, rebuilt_reframe _ headers bodyLen⟩
  | unchunked bodyLen => exact .inl ⟨List.cons_ne_nil _ _, rebuilt_reframe _ headers bodyLen⟩

theorem Harmless.passes (terminated : findHeadersEnd block = some block.length)
    (harmless : env.Harmless block path) : env.PassesUnnamed block path := by
  have filled : ∀ line ∈ env.unnamedLines block path, line ≠ [] := fun line mem =>
    (mem_unnamedLines mem).1
  have output : (env.unnamedLines block path).Sublist (splitCrlf (env.outputHeaders block)) := by
    have filtered := passes_headerOutcome terminated harmless.uncut
    rcases outputHeaders_rebuilt terminated with ⟨strips, rebuilt⟩ | ⟨-, same⟩
    · exact rebuilt.passes filtered filled
        (fun line mem => (mem_unnamedLines mem).2.2.1 strips.1) (harmless.well_formed (.inr strips))
    · rwa [same]
  rw [PassesUnnamed, sentOn]
  rcases path.frame_rebuilt (env.outputHeaders block) with ⟨reframes, rebuilt⟩ | ⟨-, same⟩
  · exact rebuilt.passes output filled (fun line mem => (mem_unnamedLines mem).2.2.2)
      (harmless.well_formed (.inl reframes))
  · rwa [same]

/-- The lines of a sent block, on the paths that decode it and behind the Set-Cookie filter. -/
theorem sent_lines (terminated : findHeadersEnd block = some block.length) :
    (env.FiltersCookies → ∀ line ∈ splitCrlf (env.sentOn block path), 10 ∉ line) ∧
      (env.Decodes block path →
        ∀ line ∈ splitCrlf (env.sentOn block path), Utf8.valid line = true) := by
  have output : (env.FiltersCookies → ∀ line ∈ splitCrlf (env.outputHeaders block), 10 ∉ line) := by
    intro filtering
    have filtered := no_lf_of_filtered filtering terminated
    rcases outputHeaders_rebuilt terminated with ⟨-, rebuilt⟩ | ⟨-, same⟩
    · exact rebuilt.no_lf filtered
    · rwa [same]
  rw [sentOn]
  rcases path.frame_rebuilt (env.outputHeaders block) with ⟨-, rebuilt⟩ | ⟨plain, same⟩
  · exact ⟨fun filtering => rebuilt.no_lf (output filtering), fun _ => rebuilt.decoded⟩
  · rw [same]
    refine ⟨output, fun decodes => ?_⟩
    have strips := decodes.resolve_left (not_not_intro plain)
    rcases outputHeaders_rebuilt terminated with ⟨-, rebuilt⟩ | ⟨keeps, -⟩
    · exact rebuilt.decoded
    · exact absurd strips keeps

/-- The unnamed lines of a block arrive exactly when the path leaves them alone. -/
theorem passesUnnamed_iff (terminated : findHeadersEnd block = some block.length) :
    env.PassesUnnamed block path ↔ env.Harmless block path := by
  refine ⟨fun passes => ?_, Harmless.passes terminated⟩
  obtain ⟨no_lf, decoded⟩ := @sent_lines env block path terminated
  exact ⟨fun filtering line mem => no_lf filtering line (passes.subset mem),
    fun decodes line mem => decoded decodes line (passes.subset mem)⟩

theorem SentHeaders.exists_path {headers : Bytes} (sent : env.SentHeaders block headers) :
    ∃ path, headers = env.sentOn block path := by
  rcases sent with rfl | ⟨bodyLen, rfl⟩ | ⟨bodyLen, rfl⟩
  · exact ⟨.filtered, rfl⟩
  · exact ⟨.sized bodyLen, rfl⟩
  · exact ⟨.unchunked bodyLen, rfl⟩

end Paths

/-- What is sent of the first response starts with its header block on one of the paths, and on
every path the unnamed lines of a block arrive byte for byte exactly when the path leaves them
alone. -/
theorem unnamed_lines_pass_iff :
    (∀ events outputs status, env.relay.Run {} events outputs status →
      HeadersFound (upstreamReads events) →
      clientBytes outputs = blockedReply outputs ∨
        ∃ headerEnd path rest, findHeadersEnd (upstreamReads events).flatten = some headerEnd ∧
          clientBytes outputs =
            env.sentOn ((upstreamReads events).flatten.take headerEnd) path ++ rest) ∧
    ∀ block path, findHeadersEnd block = some block.length →
      (env.PassesUnnamed block path ↔ env.Harmless block path) := by
  refine ⟨fun events outputs status execution found => ?_, fun block path => passesUnnamed_iff⟩
  rcases sentHeaders_of_run execution found with
    blocked | ⟨headerEnd, headers, rest, occurs, sent, client⟩
  · exact .inl blocked
  · obtain ⟨path, rfl⟩ := sent.exists_path
    exact .inr ⟨headerEnd, path, rest, occurs, client⟩

/-- A response with a cache field and a line that may not be UTF-8. -/
def cachedBlock (name : Bytes) : Bytes :=
  ascii "HTTP/1.1 200 OK\r\nX-Cache: HIT\r\nX-Name: " ++ name ++ crlfcrlf

theorem accented_name_passes :
    (sampleTunnel (.defaultForMode .reportOnly) trackerHost).PassesUnnamed
      (cachedBlock [0xC3, 0xA9]) (.sized 5) := by
  refine ((sampleTunnel (.defaultForMode .reportOnly) trackerHost).unnamed_lines_pass_iff.2 _ _
    (by decide +kernel)).mpr ⟨fun filtering => ?_, fun _ => ?_⟩
  · exact absurd filtering.1 (by decide)
  · decide +kernel

/-- The same name in Latin-1 does not arrive. -/
theorem latin1_name_is_replaced :
    findHeadersEnd (cachedBlock [0xE9]) = some (cachedBlock [0xE9]).length ∧
      ¬ (sampleTunnel (.defaultForMode .reportOnly) trackerHost).PassesUnnamed
        (cachedBlock [0xE9]) .filtered := by
  refine ⟨by decide +kernel, fun passes => ?_⟩
  have mem : ascii "X-Name: " ++ [0xE9] ∈
      (sampleTunnel (.defaultForMode .reportOnly) trackerHost).unnamedLines
        (cachedBlock [0xE9]) .filtered := by decide +kernel
  have absent : ascii "X-Name: " ++ [0xE9] ∉
      splitCrlf ((sampleTunnel (.defaultForMode .reportOnly) trackerHost).sentOn
        (cachedBlock [0xE9]) .filtered) := by decide +kernel
  exact absent (passes.subset mem)

end RelayEnv

end PrivacyEngine
