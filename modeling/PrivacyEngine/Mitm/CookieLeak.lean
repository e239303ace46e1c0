import PrivacyEngine.Mitm.Conservation
import PrivacyEngine.Mitm.OutputHeaders

/-!
# No Set-Cookie line survives enforcement

The Set-Cookie filter works on lines separated by line feeds; the helpers behind it decode its
output again and work on lines separated by CRLF.  None of them can bring a removed line back: each
drops lines of a block in which no line behind the first starts with the field name.
-/

namespace PrivacyEngine

open Wire Reactive

theorem setCookieField_ascii : ∀ b ∈ setCookieField, b < 0x80 := by decide +kernel

theorem cr_not_mem_setCookieField : 13 ∉ setCookieField := by decide

theorem startsWithAsciiCaseInsensitive_eq (line : Bytes) :
    startsWithAsciiCaseInsensitive line setCookieField = startsWithLower line setCookieField := by
  have lower : toAsciiLowercase setCookieField = setCookieField := by decide
  rw [Bool.eq_iff_iff, startsWithAsciiCaseInsensitive_iff, lower, startsWithLower,
    List.isPrefixOf_iff_prefix]

theorem lineTest_setCookie : LineTest (startsWithLower · setCookieField) :=
  lineTest_startsWithLower (by decide) setCookieField_ascii cr_not_mem_setCookieField

namespace RelayEnv

variable {env : RelayEnv}

theorem unmarked_outputHeaders (enforcing : env.policyEngine.cfg.mode = .enforce)
    (filtering : env.sessionPlan.enableHttp1SetCookieFilter = true) {block : Bytes}
    (terminated : findHeadersEnd block = some block.length) :
    anyLaterLine (startsWithLower · setCookieField) (env.outputHeaders block) = false := by
  obtain ⟨statusLine, lines, pieces, rebuilt⟩ :=
    headerOutcome_enforced enforcing filtering terminated
  have filtered :
      anyLaterLine (startsWithLower · setCookieField) (env.headerOutcome block).outputHeaders =
        false := by
    rw [rebuilt, ← Bool.not_eq_true]
    intro later
    have received : ∀ line ∈ statusLine ::
        lines.filter (!startsWithAsciiCaseInsensitive · setCookieField), 10 ∉ line := by
      intro line mem
      refine @no_lf_headerLines block line block.length ?_
      rw [pieces]
      exact List.cons_subset_cons _ List.filter_sublist.subset mem
    have passed := marks_of_rebuildHeaders lineTest_setCookie received later
    obtain ⟨line, mem, starts⟩ := List.mem_map.mp passed
    have kept := (List.mem_filter.mp mem).2
    rw [startsWithAsciiCaseInsensitive_eq, starts] at kept
    cases kept
  rcases env.outputHeaders_cases block with same | ⟨-, strips⟩
  · rwa [same]
  · rw [← Bool.not_eq_true] at filtered ⊢
    exact mt (anyLaterLine_of_cacheStripped lineTest_setCookie strips) filtered

/-- Header blocks the relay writes for a received block. -/
def SentHeaders (env : RelayEnv) (block headers : Bytes) : Prop :=
  headers = env.outputHeaders block ∨
    (∃ bodyLen, headers = replaceContentLength (env.outputHeaders block) bodyLen) ∨
    ∃ bodyLen, headers = replaceChunkedWithContentLength (env.outputHeaders block) bodyLen

/-- Once the headers are found, whatever has been sent starts with one of these blocks. -/
theorem Outcome.sentHeaders {reads : List Bytes} {shown : Bytes} {applied : Bool}
    (outcome : env.Outcome reads shown applied) (found : HeadersFound reads) :
    ∃ headerEnd headers rest, findHeadersEnd reads.flatten = some headerEnd ∧
      env.SentHeaders (reads.flatten.take headerEnd) headers ∧ shown = headers ++ rest := by
  rcases outcome.shows with ⟨unfound, -⟩ | ⟨headers, after, opened, shows⟩
  · exact absurd found unfound
  · obtain ⟨-, headerEnd, occurs, rfl, rfl⟩ := opened
    rcases shows with ⟨same, -⟩ | ⟨-, body, rewritten, rest, framed, -, blocks, same⟩
    · exact ⟨headerEnd, _, _, occurs, .inl rfl, same⟩
    · exact ⟨headerEnd, framed, _, occurs, .inr (blocks.imp (⟨_, ·⟩) (⟨_, ·⟩)), same⟩

theorem SentHeaders.unmarked {block headers : Bytes} (sent : env.SentHeaders block headers)
    (unmarked :
      anyLaterLine (startsWithLower · setCookieField) (env.outputHeaders block) = false) :
    anyLaterLine (startsWithLower · setCookieField) headers = false := by
  rw [← Bool.not_eq_true] at unmarked ⊢
  rcases sent with rfl | ⟨bodyLen, rfl⟩ | ⟨bodyLen, rfl⟩
  · exact unmarked
  · exact mt (anyLaterLine_of_reframe lineTest_setCookie rfl) unmarked
  · exact mt (anyLaterLine_of_reframe lineTest_setCookie rfl) unmarked

theorem SentHeaders.terminated {block headers : Bytes} (sent : env.SentHeaders block headers)
    (output : crlfcrlf <:+ env.outputHeaders block) : crlfcrlf <:+ headers := by
  rcases sent with rfl | ⟨bodyLen, rfl⟩ | ⟨bodyLen, rfl⟩
  · exact output
  · exact List.suffix_append _ _
  · exact List.suffix_append _ _

/-- Once the header block of the first response is found, what the client is sent of it starts with
one of these blocks. -/
theorem sentHeaders_of_run {events : List RelayEvent} {outputs : List Effect}
    {status : Status RelayState RelayVerdict} (execution : env.relay.Run {} events outputs status)
    (found : HeadersFound (upstreamReads events)) :
    clientBytes outputs = blockedReply outputs ∨
      ∃ headerEnd headers rest, findHeadersEnd (upstreamReads events).flatten = some headerEnd ∧
        env.SentHeaders ((upstreamReads events).flatten.take headerEnd) headers ∧
        clientBytes outputs = headers ++ rest := by
  obtain ⟨reached, -⟩ := reached_of_run execution
  obtain ⟨client, -⟩ := clientBytes_of_run execution
  have starts : ∀ {shown applied}, env.Outcome (upstreamReads events) shown applied →
      clientBytes outputs = shown ++ blockedReply outputs →
      ∃ headerEnd headers rest, findHeadersEnd (upstreamReads events).flatten = some headerEnd ∧
        env.SentHeaders ((upstreamReads events).flatten.take headerEnd) headers ∧
        clientBytes outputs = headers ++ rest := by
    intro shown applied outcome client
    obtain ⟨headerEnd, headers, rest, occurs, sent, rfl⟩ := outcome.sentHeaders found
    exact ⟨headerEnd, headers, rest ++ blockedReply outputs, occurs, sent, by
      rw [client, List.append_assoc]⟩
  cases phase : (env.afterEvents events).2 with
  | awaitingHeaders pending =>
      rw [phase] at reached
      exact absurd found reached.2.1
  | holdingBody headers body =>
      rw [phase] at reached
      obtain ⟨-, -, silent, -⟩ := reached
      rw [silent, List.nil_append] at client
      exact .inl client
  | passingThrough =>
      rw [phase] at reached
      exact .inr (starts (.image (Image.close reached)) client)
  | ended =>
      rw [phase] at reached
      exact .inr (starts reached client)

/-- Under enforcement, once the header block of the first response is found, the client is sent
nothing of it but a block closed by an empty line in which no line behind the status line is a
Set-Cookie line, on whichever path it is sent. -/
theorem no_set_cookie_line_is_sent {events : List RelayEvent} {outputs : List Effect}
    {status : Status RelayState RelayVerdict}
    (enforcing : env.policyEngine.cfg.mode = .enforce)
    (filtering : env.sessionPlan.enableHttp1SetCookieFilter = true)
    (execution : env.relay.Run {} events outputs status)
    (found : HeadersFound (upstreamReads events)) :
    clientBytes outputs = blockedReply outputs ∨
      ∃ headerEnd headers rest, findHeadersEnd (upstreamReads events).flatten = some headerEnd ∧
        env.SentHeaders ((upstreamReads events).flatten.take headerEnd) headers ∧
        clientBytes outputs = headers ++ rest ∧ crlfcrlf <:+ headers ∧
        ∀ line ∈ (headers.splitOn 10).tail,
          startsWithAsciiCaseInsensitive line setCookieField = false := by
  rcases sentHeaders_of_run execution found with
    blocked | ⟨headerEnd, headers, rest, occurs, sent, client⟩
  · exact .inl blocked
  · have terminated := findHeadersEnd_take occurs
    have unmarked := sent.unmarked (unmarked_outputHeaders enforcing filtering terminated)
    have ends := sent.terminated (crlfcrlf_suffix_outputHeaders terminated)
    refine .inr ⟨headerEnd, headers, rest, occurs, sent, client, ends, fun line mem => ?_⟩
    rw [startsWithAsciiCaseInsensitive_eq, ← Bool.not_eq_true]
    exact List.any_eq_false.mp unmarked line mem

/-- A page with a Set-Cookie line behind a bare line feed and a byte that is not UTF-8. -/
def cookieEvents : List RelayEvent :=
  [.upstreamRead ⟨ascii "HTTP/1.1 200 OK\nSET-cookie: id=1\nX: " ++ 0xFF :: ascii "\r\n\r\nbody",
    by decide, by decide⟩]

theorem no_set_cookie_line_of_bare_lf_page :
    ∃ outputs status,
      (sampleTunnel (.defaultForMode .enforce) trackerHost).relay.Run {} cookieEvents outputs
        status ∧
      (clientBytes outputs = blockedReply outputs ∨
        ∃ headerEnd headers rest,
          findHeadersEnd (upstreamReads cookieEvents).flatten = some headerEnd ∧
          (sampleTunnel (.defaultForMode .enforce) trackerHost).SentHeaders
            ((upstreamReads cookieEvents).flatten.take headerEnd) headers ∧
          clientBytes outputs = headers ++ rest ∧ crlfcrlf <:+ headers ∧
          ∀ line ∈ (headers.splitOn 10).tail,
            startsWithAsciiCaseInsensitive line setCookieField = false) := by
  have executes : ((sampleTunnel (.defaultForMode .enforce) trackerHost).relay.run {}
      cookieEvents).map (fun _ => ()) = some () := by
    decide +kernel
  obtain ⟨outputs, status, execution, -⟩ := Machine.exists_run _ _ _ _ executes
  exact ⟨outputs, status, execution,
    no_set_cookie_line_is_sent rfl (by decide +kernel) execution
      ⟨_, List.prefix_refl _, by decide, by decide⟩⟩

end RelayEnv

end PrivacyEngine
