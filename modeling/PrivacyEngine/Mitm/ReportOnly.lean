import PrivacyEngine.Mitm.CacheFields
import PrivacyEngine.Mitm.Conservation
import PrivacyEngine.Mitm.RequestFilter

/-!
# Report-only tunnels

In report-only mode neither Set-Cookie lines nor bodies are changed.  The filters of the first
request, the answer to WebSocket upgrades and the stripping of cache fields from a tracker's
response do not look at the mode: a tunnel leaves its traffic alone exactly when none of them
applies.
-/

namespace PrivacyEngine

open Wire Reactive

/-- Stripping a block changes it. -/
theorem cacheStripped_ne {block stripped : Bytes}
    (strips : cacheStrippedHeaders block = some stripped) : stripped ≠ block := by
  rintro rfl
  obtain ⟨-, closed⟩ := cacheStrippedHeaders_eq_some strips
  have clean :
      NoCacheFields (closeHeaders (stripCacheTrackingHeaders (nonEmptyLines stripped))) := by
    apply noCacheFields_closeHeaders
    · intro line mem
      have line_mem := (List.mem_filter.mp mem).1
      exact pairFree_of_mem_splitPair (List.mem_filter.mp line_mem).1
    · intro line mem
      simpa using (List.mem_filter.mp mem).2
  rw [← closed, ← cacheStrippedHeaders_eq_none_iff, strips] at clean
  cases clean

namespace RelayEnv

variable {env : RelayEnv}

/-- In report-only mode the header block is kept exactly when it has no cache field to strip. -/
theorem outputHeaders_eq_iff (report_only : env.policyEngine.cfg.mode = .reportOnly)
    (block : Bytes) :
    env.outputHeaders block = block ↔
      (env.sessionPlan.trackerMatch = true → NoCacheFields block) := by
  have unchanged : (env.headerOutcome block).outputHeaders = block := by
    rcases env.policyEngine.outputHeaders_cases env.targetHost block env.sourceIp with
      unchanged | ⟨enforcing, -⟩
    · exact unchanged
    · rw [report_only] at enforcing
      cases enforcing
  rw [← headerOutcome_trackerMatch block]
  cases tracked : (env.headerOutcome block).trackerMatch with
  | false => simp [outputHeaders, strippedForTracker, tracked, unchanged]
  | true =>
      rw [← cacheStrippedHeaders_eq_none_iff]
      cases strips : cacheStrippedHeaders block with
      | none => simp [outputHeaders, strippedForTracker, tracked, unchanged, strips]
      | some stripped =>
          simp [outputHeaders, strippedForTracker, tracked, unchanged, strips,
            cacheStripped_ne strips]

/-- In report-only mode no body is replaced. -/
theorem Outcome.reportOnly (report_only : env.policyEngine.cfg.mode = .reportOnly)
    {reads : List Bytes} {shown : Bytes} {applied : Bool}
    (outcome : env.Outcome reads shown applied) :
    ¬ HeadersFound reads ∧ shown = reads.flatten ∨
      ∃ headers after, env.Opened reads headers after ∧ shown = headers ++ after := by
  rcases outcome.shows with ⟨unfound, same, -⟩ | ⟨headers, after, opened, shows⟩
  · exact .inl ⟨unfound, same⟩
  · rcases shows with ⟨same, -⟩ | ⟨-, body, rewritten, rest, framed, applies, -⟩
    · exact .inr ⟨headers, after, opened, same⟩
    · have unreplaced : env.rewriting headers body = none :=
        env.attempt_reportOnly body (by simpa [rewritePlan] using report_only) _
      rw [unreplaced] at applies
      cases applies

theorem clientReads_ne_nil {events : List RelayEvent} {bytes : Bytes}
    (mem : bytes ∈ clientReads events) : bytes ≠ [] := by
  obtain ⟨event, -, carried⟩ := List.mem_flatMap.mp mem
  cases event with
  | clientRead chunk =>
      obtain rfl := List.mem_singleton.mp carried
      exact List.length_pos_iff.mp chunk.nonempty
  | _ => cases carried

section Runs

variable {events : List RelayEvent} {outputs : List Effect}

/-- What the client sends is left alone exactly when its first read is neither answered nor
filtered. -/
theorem upstream_unchanged_iff (report : env.Report {} (.awaitingHeaders []) events outputs
      (.halted .returned)) :
    upstreamBytes outputs = (clientReads events).flatten ↔
      ∀ first, (clientReads events).head? = some first →
        env.blocksWebsocket first = false ∧ env.LeavesRequest first := by
  have blocked := report.blocked
  have upstream := report.upstream
  cases reads : clientReads events with
  | nil =>
      rw [reads] at blocked upstream
      simp [upstream]
  | cons first rest =>
      rw [reads] at blocked upstream
      have blocks : websocketBlocked outputs = env.blocksWebsocket first := by
        simpa [blocksFirst] using blocked
      simp only [List.head?_cons, Option.some.injEq, forall_eq']
      cases answers : env.blocksWebsocket first with
      | true =>
          rw [blocks, answers, if_pos rfl] at upstream
          have first_ne : first ≠ [] := clientReads_ne_nil (by rw [reads]; exact List.mem_cons_self)
          simp [upstream, first_ne]
      | false =>
          rw [blocks, answers, if_neg Bool.false_ne_true] at upstream
          have forwards : upstreamBytes outputs = env.forwarded first ++ rest.flatten := upstream
          rw [forwards, List.flatten_cons, List.append_left_inj, forwarded_eq_self_iff]
          simp

/-- In report-only mode what upstream sends is left alone exactly when no cache field of a tracker
is stripped. -/
theorem client_unchanged_iff (report_only : env.policyEngine.cfg.mode = .reportOnly)
    {reads : List Bytes} {shown : Bytes} {applied : Bool}
    (outcome : env.Outcome reads shown applied) :
    shown = reads.flatten ↔
      (env.sessionPlan.trackerMatch = true → HeadersFound reads →
        ∀ headerEnd, findHeadersEnd reads.flatten = some headerEnd →
          NoCacheFields (reads.flatten.take headerEnd)) := by
  rcases outcome.reportOnly report_only with ⟨unfound, rfl⟩ | ⟨headers, after, opened, rfl⟩
  · exact iff_of_true rfl fun _ found => absurd found unfound
  · obtain ⟨found, headerEnd, occurs, rfl, rfl⟩ := opened
    have kept_iff := outputHeaders_eq_iff report_only (reads.flatten.take headerEnd)
    have whole := List.take_append_drop headerEnd reads.flatten
    constructor
    · intro same tracked _ other other_occurs
      obtain rfl := Option.some.inj (occurs.symm.trans other_occurs)
      refine kept_iff.mp ?_ tracked
      exact List.append_cancel_right (same.trans whole.symm)
    · intro unstripped
      rw [kept_iff.mpr fun tracked => unstripped tracked found headerEnd occurs, whole]

/-- A report-only relay that returns has left the traffic alone exactly when the first client read
is no upgrade it answers, no request filter applies to that read, and a tracker's response has no
cache field. -/
theorem report_only_leaves_traffic_iff (report_only : env.policyEngine.cfg.mode = .reportOnly)
    (execution : env.relay.Run {} events outputs (.halted .returned)) :
    (upstreamBytes outputs = (clientReads events).flatten ∧
        clientBytes outputs = (upstreamReads events).flatten) ↔
      (∀ first, (clientReads events).head? = some first →
        env.blocksWebsocket first = false ∧ env.LeavesRequest first) ∧
      (env.sessionPlan.trackerMatch = true → HeadersFound (upstreamReads events) →
        ∀ headerEnd, findHeadersEnd (upstreamReads events).flatten = some headerEnd →
          NoCacheFields ((upstreamReads events).flatten.take headerEnd)) := by
  have report := run_report execution env.represents_initial
  rw [upstream_unchanged_iff report]
  refine and_congr_right fun leaves => ?_
  have unblocked : websocketBlocked outputs = false := by
    rw [report.blocked]
    cases reads : clientReads events with
    | nil => rfl
    | cons first rest => simp [blocksFirst, (leaves first (by rw [reads]; rfl)).1]
  have ended := (reached_of_run execution).2.mp (report.returned rfl unblocked).2
  obtain ⟨shown, client, outcome⟩ := outcome_of_run execution ended
  rw [blockedReply_of_unblocked unblocked, List.append_nil] at client
  rw [client]
  exact client_unchanged_iff report_only outcome

/-- A tracker's visitor sends a conditional request. -/
def conditionalEvents : List RelayEvent :=
  [.clientRead ⟨ascii "GET / HTTP/1.1\r\nIf-None-Match: x\r\n\r\n", by decide, by decide⟩,
    .clientEof, .upstreamEof]

/-- In report-only mode the condition of a request to a tracker is not forwarded. -/
theorem report_only_strips_condition :
    ∃ outputs,
      (sampleTunnel (.defaultForMode .reportOnly) trackerHost).relay.Run {}
        conditionalEvents outputs
        (.halted .returned) ∧
      upstreamBytes outputs ≠ (clientReads conditionalEvents).flatten := by
  have executes : ((sampleTunnel (.defaultForMode .reportOnly) trackerHost).relay.run {}
      conditionalEvents).map (fun reaction => (reaction.status, upstreamBytes reaction.outputs)) =
      some (.halted .returned, ascii "GET / HTTP/1.1\r\n\r\n") := by
    decide +kernel
  obtain ⟨outputs, status, execution, observed⟩ := Machine.exists_run _ _ _ _ executes
  obtain ⟨rfl, sent⟩ := Prod.mk.inj observed
  refine ⟨outputs, execution, ?_⟩
  rw [sent]
  decide

/-- A tracker sets a cookie in an answer without cache fields. -/
def trackerCookieEvents : List RelayEvent :=
  [.clientRead ⟨ascii "GET /a HTTP/1.1\r\n\r\n", by decide, by decide⟩,
    .upstreamRead ⟨ascii "HTTP/1.1 200 OK\r\nSet-Cookie: id=1\r\n\r\nok", by decide, by decide⟩,
    .clientEof, .upstreamEof]

theorem report_only_keeps_tracker_cookie :
    ∃ outputs,
      (sampleTunnel (.defaultForMode .reportOnly) trackerHost).relay.Run {}
        trackerCookieEvents outputs
        (.halted .returned) ∧
      upstreamBytes outputs = (clientReads trackerCookieEvents).flatten ∧
      clientBytes outputs = (upstreamReads trackerCookieEvents).flatten := by
  have executes : ((sampleTunnel (.defaultForMode .reportOnly) trackerHost).relay.run {}
      trackerCookieEvents).map Reaction.status = some (.halted .returned) := by
    decide +kernel
  obtain ⟨outputs, status, execution, rfl⟩ := Machine.exists_run _ _ _ _ executes
  refine ⟨outputs, execution, (report_only_leaves_traffic_iff rfl execution).mpr ⟨?_, ?_⟩⟩
  · rintro first ⟨⟩
    exact ⟨by decide +kernel, by decide +kernel, by decide +kernel, by decide +kernel⟩
  · rintro - - headerEnd found
    have header_end : headerEnd = 37 := by
      have occurs : findHeadersEnd (upstreamReads trackerCookieEvents).flatten = some 37 := by
        decide +kernel
      exact Option.some.inj (found.symm.trans occurs)
    subst header_end
    unfold NoCacheFields
    decide +kernel

end Runs

end RelayEnv

end PrivacyEngine
