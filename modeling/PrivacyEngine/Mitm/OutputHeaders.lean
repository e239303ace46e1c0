import PrivacyEngine.Mitm.Relay
import PrivacyEngine.Mitm.Reframe

/-!
# The policy's header block

The block that the relay sends in place of a received one is the received block, that block rebuilt
from its lines without the Set-Cookie lines, or either of them closed around fewer lines.  Whatever
it is, it ends in an empty line, and no header line of it says what no line of the received block
says.
-/

namespace PrivacyEngine

open Wire

/-! ## Blocks rebuilt from lines -/

theorem rebuildHeaders_eq_joinCrlf (statusLine : Bytes) (lines : List Bytes) :
    rebuildHeaders statusLine lines [] = joinCrlf (statusLine :: lines ++ [[], []]) := by
  have tail : ∀ lines : List Bytes,
      lines.flatMap (· ++ crlf) ++ crlf = joinCrlf (lines ++ [[], []]) := by
    intro lines
    induction lines with
    | nil => rfl
    | cons line lines ih =>
        rw [List.flatMap_cons, List.append_assoc, ih, List.cons_append, joinCrlf, joinCrlf,
          joinPair_cons line (by simp)]
        simp [crlf]
  rw [List.cons_append, joinCrlf, joinPair_cons statusLine (by simp), ← joinCrlf, ← tail]
  simp [rebuildHeaders, crlf]

theorem crlfcrlf_suffix_rebuildHeaders (statusLine : Bytes) (lines : List Bytes) :
    crlfcrlf <:+ rebuildHeaders statusLine lines [] := by
  rcases List.eq_nil_or_concat lines with rfl | ⟨front, last, rfl⟩
  · exact ⟨statusLine, by simp [rebuildHeaders, crlf, crlfcrlf]⟩
  · exact ⟨statusLine ++ crlf ++ front.flatMap (· ++ crlf) ++ last,
      by simp [rebuildHeaders, crlf, crlfcrlf]⟩

/-- The header block of a stream is terminated by its own end. -/
theorem findHeadersEnd_take {stream : Bytes} {headerEnd : Nat}
    (occurs : findHeadersEnd stream = some headerEnd) :
    findHeadersEnd (stream.take headerEnd) = some (stream.take headerEnd).length := by
  have in_range := findHeadersEnd_le occurs
  obtain ⟨i, found, rfl⟩ := Option.map_eq_some_iff.mp occurs
  rw [List.length_take, Nat.min_eq_left in_range]
  exact Option.map_eq_some_iff.mpr ⟨i, findSub_take crlfcrlf_ne_nil found le_rfl, rfl⟩

theorem crlfcrlf_suffix_of_terminated {block : Bytes}
    (terminated : findHeadersEnd block = some block.length) : crlfcrlf <:+ block := by
  obtain ⟨i, found, length_eq⟩ := Option.map_eq_some_iff.mp terminated
  obtain ⟨⟨rest, rest_eq⟩, -⟩ := (findSub_eq_some_iff crlfcrlf_ne_nil).mp found
  have rest_length := congrArg List.length rest_eq
  rw [List.length_append, List.length_drop, ← length_eq] at rest_length
  have nothing : rest = [] := by
    rw [← List.length_eq_zero_iff]
    simp only [crlfcrlf, List.length_cons, List.length_nil] at rest_length
    omega
  rw [nothing, List.append_nil] at rest_eq
  rw [rest_eq]
  exact List.drop_suffix i block

theorem no_lf_headerLines {block line : Bytes} {headerEnd : Nat}
    (mem : line ∈ headerLines block headerEnd) : 10 ∉ line := by
  obtain ⟨piece, piece_mem, rfl⟩ := List.mem_map.mp mem
  have no_lf := not_mem_of_mem_splitOn piece_mem
  unfold stripTrailingCr
  split
  · exact fun mem => no_lf (List.mem_of_mem_dropLast mem)
  · exact no_lf

section Marks

variable {test : Str → Bool} (stable : LineTest test)

include stable

theorem test_stripTrailingCr (line : Bytes) : test (stripTrailingCr line) = test line := by
  unfold stripTrailingCr
  split
  · rename_i last
    obtain ⟨front, rfl⟩ := List.getLast?_eq_some_iff.mp last
    rw [List.dropLast_concat, stable.concat_cr]
  · rfl

/-- Lines that the policy reads have the marks of the block in front of its last line end. -/
theorem sublist_marks_headerLines {block : Bytes}
    (terminated : findHeadersEnd block = some block.length) :
    ((headerLines block block.length).map test).Sublist (lineMarks test block) := by
  obtain ⟨front, rfl⟩ := crlfcrlf_suffix_of_terminated terminated
  have taken : (front ++ crlfcrlf).take ((front ++ crlfcrlf).length - 2) = front ++ [13, 10] := by
    have cut : front ++ crlfcrlf = (front ++ [13, 10]) ++ [13, 10] := by simp [crlfcrlf]
    rw [cut, List.length_append, List.length_cons, List.length_singleton, Nat.add_sub_cancel,
      List.take_left]
  have marks : (headerLines (front ++ crlfcrlf) (front ++ crlfcrlf).length).map test =
      lineMarks test (front ++ [13, 10]) := by
    rw [headerLines, taken, List.map_map, lineMarks]
    exact List.map_congr_left fun line _ => test_stripTrailingCr stable line
  have whole : lineMarks test (front ++ crlfcrlf) =
      lineMarks test front ++ lineMarks test [13, 10] := stable.lineMarks_cut front [13, 10]
  rw [marks, stable.lineMarks_cut front [], whole, stable.lineMarks_crlf, stable.lineMarks_nil]
  exact (List.sublist_append_left [false] [false]).append_left _

theorem marks_of_rebuildHeaders {statusLine : Bytes} {lines : List Bytes}
    (no_lf : ∀ line ∈ statusLine :: lines, 10 ∉ line)
    (later : anyLaterLine test (rebuildHeaders statusLine lines []) = true) :
    true ∈ ((statusLine :: lines).map test).tail := by
  have lines_marks : lineMarks test (rebuildHeaders statusLine lines []) =
      (statusLine :: lines).map test ++ [false, false] := by
    rw [rebuildHeaders_eq_joinCrlf, joinCrlf, stable.lineMarks_joinPair (by simp),
      List.flatMap_append, List.flatMap_congr fun line mem => lineMarks_of_no_lf (no_lf line mem),
      ← List.map_eq_flatMap]
    simp [stable.lineMarks_nil]
  rw [anyLaterLine_iff, lines_marks] at later
  exact mem_tail_of_append later (by decide)

end Marks

/-- The first value of a field in front of an empty line is its first value in the whole block. -/
theorem firstFieldValue_append {front : Bytes} (closed : crlfcrlf <:+ front) {field : Str}
    (field_ne : field ≠ []) {value : Str}
    (announced : firstFieldValue field (splitCrlf (Utf8.lossy front)) = some value) (rest : Bytes) :
    firstFieldValue field (splitCrlf (Utf8.lossy (front ++ rest))) = some value := by
  obtain ⟨lines, rfl⟩ := closed
  have cut : ∀ tail : Bytes, splitCrlf (Utf8.lossy (lines ++ 13 :: 10 :: tail)) =
      (splitPair 13 10 lines).map Utf8.lossy ++ (splitPair 13 10 tail).map Utf8.lossy := by
    intro tail
    rw [splitCrlf, splitPair_lossy, splitPair_cut (by decide), List.map_append]
  have no_field : [[], []].find? (startsWithLower · field) = none := by
    cases field with
    | nil => exact absurd rfl field_ne
    | cons first field => rfl
  have front_lines : splitCrlf (Utf8.lossy (lines ++ crlfcrlf)) = _ := cut [13, 10]
  have all_lines : splitCrlf (Utf8.lossy (lines ++ 13 :: 10 :: 13 :: 10 :: rest)) = _ :=
    cut (13 :: 10 :: rest)
  have whole : lines ++ crlfcrlf ++ rest = lines ++ 13 :: 10 :: 13 :: 10 :: rest := by
    simp [crlfcrlf]
  rw [whole]
  rw [firstFieldValue, front_lines, List.find?_append] at announced
  rw [firstFieldValue, all_lines, List.find?_append]
  cases found : ((splitPair 13 10 lines).map Utf8.lossy).find? (startsWithLower · field) with
  | none => simp [found, splitPair, no_field] at announced
  | some line => simpa [found] using announced

/-- A length announced in front of an empty line is the one the whole block announces. -/
theorem extractContentLength_append {front : Bytes} (closed : crlfcrlf <:+ front) {expected : Nat}
    (announced : extractContentLength front = some expected) (rest : Bytes) :
    extractContentLength (front ++ rest) = some expected := by
  obtain ⟨value, first, parses⟩ := Option.bind_eq_some_iff.mp announced
  rw [extractContentLength, firstFieldValue_append closed (by decide) first, Option.bind_some,
    parses]

namespace RelayEnv

variable {env : RelayEnv}

/-- Under enforcement the block is rebuilt from its lines without the Set-Cookie lines. -/
theorem headerOutcome_enforced (enforcing : env.policyEngine.cfg.mode = .enforce)
    (filtering : env.sessionPlan.enableHttp1SetCookieFilter = true) {block : Bytes}
    (terminated : findHeadersEnd block = some block.length) :
    ∃ statusLine lines, headerLines block block.length = statusLine :: lines ∧
      (env.headerOutcome block).outputHeaders =
        rebuildHeaders statusLine
          (lines.filter (!startsWithAsciiCaseInsensitive · setCookieField)) [] := by
  have filter_on : (env.policyEngine.planForHostWithSourceIp env.targetHost
      env.sourceIp).enableHttp1SetCookieFilter = true := filtering
  cases pieces : headerLines block block.length with
  | nil => simp [headerLines, List.splitOn_ne_nil] at pieces
  | cons statusLine lines =>
      refine ⟨statusLine, lines, rfl, ?_⟩
      simp [headerOutcome, PolicyEngine.applyHttp1ResponseHeaderPolicy, filter_on, terminated,
        pieces, enforcing]

theorem headerOutcome_cases {block : Bytes}
    (terminated : findHeadersEnd block = some block.length) :
    (env.headerOutcome block).outputHeaders = block ∨
      ∃ statusLine lines, (statusLine :: lines).Sublist (headerLines block block.length) ∧
        (env.headerOutcome block).outputHeaders = rebuildHeaders statusLine lines [] := by
  by_cases enforcing : env.policyEngine.cfg.mode = .enforce
  · by_cases filtering : env.sessionPlan.enableHttp1SetCookieFilter = true
    · obtain ⟨statusLine, lines, pieces, rebuilt⟩ :=
        headerOutcome_enforced enforcing filtering terminated
      refine .inr ⟨statusLine, _, ?_, rebuilt⟩
      rw [pieces]
      exact List.filter_sublist.cons_cons _
    · rw [sessionPlan, Bool.not_eq_true] at filtering
      exact .inl (by simp [headerOutcome, PolicyEngine.applyHttp1ResponseHeaderPolicy, filtering,
        SessionPlan.untouched])
  · rcases env.policyEngine.outputHeaders_cases env.targetHost block env.sourceIp with
      unchanged | ⟨enforced, -⟩
    · exact .inl unchanged
    · exact absurd enforced enforcing

/-- The policy's block ends in an empty line. -/
theorem crlfcrlf_suffix_outputHeaders {block : Bytes}
    (terminated : findHeadersEnd block = some block.length) :
    crlfcrlf <:+ env.outputHeaders block := by
  rcases env.outputHeaders_cases block with same | ⟨-, strips⟩
  · rw [same]
    rcases headerOutcome_cases terminated with unchanged | ⟨statusLine, lines, -, rebuilt⟩
    · rw [unchanged]
      exact crlfcrlf_suffix_of_terminated terminated
    · rw [rebuilt]
      exact crlfcrlf_suffix_rebuildHeaders _ _
  · rw [(cacheStrippedHeaders_eq_some strips).2]
    exact List.suffix_append _ _

section Marks

variable {test : Str → Bool} (stable : LineTest test)

include stable

/-- The policy marks no line. -/
theorem anyLaterLine_of_headerOutcome {block : Bytes}
    (terminated : findHeadersEnd block = some block.length)
    (later : anyLaterLine test (env.headerOutcome block).outputHeaders = true) :
    anyLaterLine test block = true := by
  rcases headerOutcome_cases terminated with unchanged | ⟨statusLine, lines, received, rebuilt⟩
  · rwa [unchanged] at later
  · rw [rebuilt] at later
    have kept := marks_of_rebuildHeaders stable
      (fun line mem => no_lf_headerLines (received.subset mem)) later
    rw [anyLaterLine_iff]
    exact ((received.map test).trans (sublist_marks_headerLines stable terminated)).tail.subset kept

theorem anyLaterLine_of_cacheStripped {block stripped : Bytes}
    (strips : cacheStrippedHeaders block = some stripped)
    (later : anyLaterLine test stripped = true) : anyLaterLine test block = true := by
  rw [(cacheStrippedHeaders_eq_some strips).2] at later
  exact anyLaterLine_of_kept stable List.filter_sublist later

theorem anyLaterLine_of_outputHeaders {block : Bytes}
    (terminated : findHeadersEnd block = some block.length)
    (later : anyLaterLine test (env.outputHeaders block) = true) :
    anyLaterLine test block = true := by
  have outcome : anyLaterLine test (env.headerOutcome block).outputHeaders = true := by
    rcases env.outputHeaders_cases block with same | ⟨-, strips⟩
    · rwa [same] at later
    · exact anyLaterLine_of_cacheStripped stable strips later
  exact anyLaterLine_of_headerOutcome stable terminated outcome

end Marks

end RelayEnv

end PrivacyEngine
