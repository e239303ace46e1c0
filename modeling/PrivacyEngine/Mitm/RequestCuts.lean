import PrivacyEngine.Mitm.RequestFilter

/-!
# The first request and how it is cut into reads

The relay filters its first client read, not the request head.  The outcome is the one for the head
alone exactly when the first read holds the whole head in front of well-formed bytes that contain no
upgrade line of their own, or else when the filters that miss the head have nothing to do on it.
-/

namespace PrivacyEngine

open Wire Reactive

/-! ## Upgrade lines -/

theorem requestHasWebsocketUpgrade_eq (buf : Bytes) :
    requestHasWebsocketUpgrade buf =
      (Utf8.valid buf && (splitCrlf buf).any isWebsocketUpgradeLine) := by
  unfold requestHasWebsocketUpgrade fromUtf8
  cases Utf8.valid buf <;> rfl

/-- An upgrade line in front of well-formed bytes lies in the head or behind it. -/
theorem requestHasWebsocketUpgrade_head {lines : List Str} {body : Bytes} (head : IsHead lines)
    (lines_valid : ∀ line ∈ lines, Utf8.valid line = true) (body_valid : Utf8.valid body = true) :
    requestHasWebsocketUpgrade (closeHeaders lines ++ body) =
      (requestHasWebsocketUpgrade (closeHeaders lines) || requestHasWebsocketUpgrade body) := by
  have whole_valid := (valid_closeHeaders head.ne_nil body).mpr ⟨lines_valid, body_valid⟩
  have head_valid := (valid_closeHeaders head.ne_nil []).mpr ⟨lines_valid, rfl⟩
  have blank : isWebsocketUpgradeLine [] = false := by decide
  have alone := head.splitCrlf_close []
  rw [List.append_nil] at head_valid alone
  rw [requestHasWebsocketUpgrade_eq, requestHasWebsocketUpgrade_eq, requestHasWebsocketUpgrade_eq,
    whole_valid, head_valid, body_valid, head.splitCrlf_close, alone]
  simp [blank, splitCrlf, splitPair]

/-! ## The line filters behind a stripped request line -/

theorem otherLength_cons (line : Str) (lines : List Str) :
    otherLength (line :: lines) =
      (if isReferer line then 0 else line.length) + otherLength lines := by
  simp [otherLength]

namespace RelayEnv

variable {env : RelayEnv} {lines : List Str}

/-- When only the request line is stripped, the other filters have nothing to do. -/
theorem spoofReferer_eq_self_of_stripped {first stripped : Str} {rest : List Str}
    (head : IsHead (first :: rest)) (strips : stripRequestLine first = some stripped)
    (enabled : Bool)
    (same : onlyIf enabled dropConditional (stripTarget (spoofReferer (first :: rest))) =
      stripped :: rest) :
    spoofReferer (first :: rest) = first :: rest := by
  have spoofed_length := otherLength_spoofReferer (first :: rest)
  have dropped := onlyIf_cases enabled
    (dropConditional_cases _ head.spoofReferer.stripTarget.ne_nil)
  rw [same] at dropped
  cases referer : isReferer first with
  | false =>
      have shape : spoofReferer (first :: rest) = first :: spoofReferer rest := by
        simp [spoofReferer, referer]
      have stripped_shape : stripTarget (spoofReferer (first :: rest)) =
          stripped :: spoofReferer rest := by
        simp [shape, stripTarget, strips]
      rw [stripped_shape, otherLength_cons, otherLength_cons, otherLength_spoofReferer] at dropped
      have kept := dropped.resolve_right (lt_irrefl _)
      rw [shape, ← (List.cons.inj kept).2]
  | true =>
      have stripped_ne : stripped ≠ [] := by
        rintro rfl
        exact absurd (count_stripRequestLine strips) (by decide)
      have stripped_pos := List.length_pos_iff.mpr stripped_ne
      rw [otherLength_cons] at dropped
      have first_length : otherLength (first :: rest) = otherLength rest := by
        simp [otherLength_cons, referer]
      rcases stripTarget_spoofReferer_cases (first :: rest) with kept | shorter
      · rw [kept] at dropped
        have shape : spoofReferer (first :: rest) = stripped :: rest := by
          rcases dropped with same | less
          · exact same.symm
          · omega
        rcases spoofReferer_cases (first :: rest) with alone | ⟨other, others, other_eq, no_referer⟩
        · rw [alone] at shape
          exact absurd (List.cons.inj shape).1.symm (stripRequestLine_ne_googleReferer strips)
        · rw [shape] at other_eq
          obtain ⟨rfl, rfl⟩ := List.cons.inj other_eq
          rw [shape, otherLength_cons, no_referer, if_neg Bool.false_ne_true] at spoofed_length
          omega
      · rcases dropped with same | less
        · rw [← same, otherLength_cons] at shorter
          omega
        · omega

/-! ## A first read that is only a part of the head -/

/-- The query filter can read the request line: the text is well-formed and has a line end. -/
def seesRequestLine (buf : Bytes) : Bool := Utf8.valid buf && contains buf crlf

section Part

variable {part rest : Bytes}

theorem cutHead_part (head : IsHead lines) (cut : part ++ rest = closeHeaders lines)
    (rest_ne : rest ≠ []) : cutHead part = none := by
  unfold cutHead fromUtf8
  cases Utf8.valid part with
  | false => rfl
  | true => simp [head.findSub_part cut rest_ne]

theorem stripCacheRequestHeaders_part (head : IsHead lines)
    (cut : part ++ rest = closeHeaders lines)
    (rest_ne : rest ≠ []) : stripCacheRequestHeaders part = none := by
  simp [stripCacheRequestHeaders, cutHead_part head cut rest_ne]

/-- On a part of a head, the query filter strips the request line when it can read it. -/
theorem applied_query_part (head : IsHead lines) (cut : part ++ rest = closeHeaders lines) :
    applied stripTrackingQueryParams part ++ rest =
      closeHeaders (onlyIf (seesRequestLine part) stripTarget lines) := by
  unfold seesRequestLine applied stripTrackingQueryParams fromUtf8 contains
  cases Utf8.valid part with
  | false => exact cut
  | true =>
      simp only [if_true, Bool.true_and, Option.bind_eq_bind, Option.bind_some]
      cases found : findSub crlf part with
      | none => exact cut
      | some lineEnd =>
          cases lines with
          | nil => exact absurd rfl head.ne_nil
          | cons first fields =>
              obtain ⟨behind, shape⟩ := exists_closeHeaders_cons fields []
              simp only [List.append_nil] at shape
              have free := head.free first List.mem_cons_self
              have whole := findSub_append crlf_ne_nil found rest
              rw [cut, shape, findSub_crlf_of_pairFree free behind] at whole
              obtain rfl := Option.some.inj whole
              have in_range : first.length ≤ part.length := by
                have bound := findSub_bound crlf_ne_nil found
                omega
              have line : part.take first.length = first := by
                rw [← List.take_append_of_le_length in_range, cut, shape, List.take_left]
              have later : part.drop first.length ++ rest = 13 :: 10 :: behind := by
                rw [← List.drop_append_of_le_length in_range, cut, shape, List.drop_left]
              simp only [onlyIf, Option.isSome_some, if_true, stripTarget, line, shape,
                Option.bind_some]
              cases strips : stripRequestLine first with
              | none =>
                  rw [Option.bind_none, Option.getD_none, Option.getD_none, cut, shape]
              | some stripped =>
                  rw [Option.bind_some, Option.getD_some, Option.getD_some, List.append_assoc,
                    later]

/-- What is forwarded for a part of a head: at most the request line is stripped. -/
theorem forwarded_part (head : IsHead lines) (cut : part ++ rest = closeHeaders lines)
    (rest_ne : rest ≠ []) :
    env.forwarded part ++ rest =
      closeHeaders
        (onlyIf (env.rewritePlan.queryParamStrip && seesRequestLine part) stripTarget lines) := by
  have no_referer : injectGoogleReferer part = none := by
    simp [injectGoogleReferer, cutHead_part head cut rest_ne]
  rw [forwarded_eq, onlyIf_eq_self fun _ => applied_eq_self no_referer]
  cases env.rewritePlan.queryParamStrip with
  | false =>
      have no_cache := stripCacheRequestHeaders_part head cut rest_ne
      exact (congrArg (· ++ rest) (onlyIf_eq_self fun _ => applied_eq_self no_cache)).trans cut
  | true =>
      have stripped := applied_query_part head cut
      have stripped_head : IsHead (onlyIf (seesRequestLine part) stripTarget lines) := by
        unfold onlyIf
        split
        · exact head.stripTarget
        · exact head
      have no_cache := stripCacheRequestHeaders_part stripped_head stripped rest_ne
      exact (congrArg (· ++ rest) (onlyIf_eq_self fun _ => applied_eq_self no_cache)).trans stripped

end Part

/-! ## When the cut does not matter -/

variable (env) in
/-- The filters that cannot act on a part of a head have nothing to do on the head. -/
structure PartLeaves (head part : Bytes) : Prop where
  referer : env.rewritePlan.refererSpoof = true → applied injectGoogleReferer head = head
  query : env.rewritePlan.queryParamStrip = true →
    stripTrackingQueryParams head = none ∨ seesRequestLine part = true
  cache : env.sessionPlan.trackerMatch = true →
    stripCacheRequestHeaders
      (onlyIf env.rewritePlan.queryParamStrip (applied stripTrackingQueryParams) head) = none

variable (env) in
/-- The first read is treated as the head it starts with or belongs to. -/
def Unaffected (head first : Bytes) : Prop :=
  if head <+: first then
    if Utf8.valid first then
      env.blocksWebsocket head = false → env.blocksWebsocket (first.drop head.length) = false
    else env.blocksWebsocket head = false ∧ env.LeavesRequest head
  else
    env.blocksWebsocket first = env.blocksWebsocket head ∧
      (env.blocksWebsocket head = false → env.PartLeaves head first)

theorem partLeaves_of_filteredLines (holds : HoldsHead [] (closeHeaders lines) lines) {part : Bytes}
    (same : env.filteredLines lines =
      onlyIf (env.rewritePlan.queryParamStrip && seesRequestLine part) stripTarget lines) :
    env.PartLeaves (closeHeaders lines) part := by
  by_cases unmoved :
      onlyIf (env.rewritePlan.queryParamStrip && seesRequestLine part) stripTarget lines = lines
  · have kept : env.forwarded (closeHeaders lines) = closeHeaders lines := by
      have filtered : HoldsHead [] (env.forwarded (closeHeaders lines)) (env.filteredLines lines) :=
        holds.forwarded
      rw [filtered.eq, same, unmoved, List.append_nil]
    have leaves := (forwarded_eq_self_iff _).mp kept
    refine ⟨leaves.referer, fun strips => .inl (leaves.query strips), fun tracked => ?_⟩
    rw [onlyIf_eq_self fun strips => applied_eq_self (leaves.query strips)]
    exact leaves.cache tracked
  · cases strips : env.rewritePlan.queryParamStrip with
    | false => exact absurd (by simp [onlyIf, strips]) unmoved
    | true =>
        cases sees : seesRequestLine part with
        | false => exact absurd (by simp [onlyIf, sees]) unmoved
        | true =>
            rw [filteredLines, strips, sees] at same
            rw [strips, sees] at unmoved
            simp only [onlyIf, Bool.and_self, if_true] at same unmoved
            have spoofed : onlyIf env.rewritePlan.refererSpoof spoofReferer lines = lines := by
              refine onlyIf_eq_self fun spoofs => ?_
              cases lines with
              | nil => exact absurd rfl holds.head.ne_nil
              | cons first fields =>
                  cases stripped : stripRequestLine first with
                  | none => exact absurd (by simp [stripTarget, stripped]) unmoved
                  | some line =>
                      apply spoofReferer_eq_self_of_stripped holds.head stripped
                        env.sessionPlan.trackerMatch
                      simpa [onlyIf, spoofs, stripTarget, stripped] using same
            refine ⟨fun spoofs => ?_, fun _ => .inr sees, fun tracked => ?_⟩
            · have shown := holds.referer.eq
              rw [onlyIf, if_pos spoofs] at spoofed
              rwa [spoofed, List.append_nil] at shown
            · rw [strips]
              change (if env.rewritePlan.refererSpoof then spoofReferer lines else lines) = lines
                at spoofed
              rw [spoofed, if_pos tracked] at same
              apply eq_none_of_applied length_stripCacheRequestHeaders
              rw [onlyIf, if_pos rfl, holds.query.cache.eq, same, ← holds.query.eq]

theorem filteredLines_of_partLeaves (holds : HoldsHead [] (closeHeaders lines) lines) {part : Bytes}
    (leaves : env.PartLeaves (closeHeaders lines) part) :
    env.filteredLines lines =
      onlyIf (env.rewritePlan.queryParamStrip && seesRequestLine part) stripTarget lines := by
  have filtered : HoldsHead [] (env.forwarded (closeHeaders lines)) (env.filteredLines lines) :=
    holds.forwarded
  have shown := filtered.eq
  rw [forwarded_eq, onlyIf_eq_self leaves.referer,
    onlyIf_eq_self fun tracked => applied_eq_self (leaves.cache tracked)] at shown
  cases strips : env.rewritePlan.queryParamStrip with
  | false =>
      rw [strips, holds.eq] at shown
      exact (filtered.head.unique holds.head shown.symm).1
  | true =>
      rw [strips] at shown
      have stripped := filtered.head.unique holds.query.head (shown.symm.trans holds.query.eq)
      rcases leaves.query strips with nothing | sees
      · have kept := holds.query.eq
        rw [applied_eq_self nothing, holds.eq] at kept
        have unmoved := (holds.head.unique holds.query.head kept).1
        rw [stripped.1, ← unmoved]
        exact (onlyIf_eq_self fun _ => unmoved.symm).symm
      · rw [stripped.1, sees]
        rfl

theorem blocksWebsocket_head (head : IsHead lines) {body : Bytes}
    (lines_valid : ∀ line ∈ lines, Utf8.valid line = true) (body_valid : Utf8.valid body = true) :
    env.blocksWebsocket (closeHeaders lines ++ body) =
      (env.blocksWebsocket (closeHeaders lines) || env.blocksWebsocket body) := by
  unfold blocksWebsocket
  rw [requestHasWebsocketUpgrade_head head lines_valid body_valid, Bool.and_or_distrib_left]

theorem blocksWebsocket_invalid {buf : Bytes} (invalid : Utf8.valid buf = false) :
    env.blocksWebsocket buf = false := by
  simp [blocksWebsocket, requestHasWebsocketUpgrade_eq, invalid]

section FirstRead

variable {body first rest : Bytes}

/-- A first read that holds the whole head. -/
theorem whole_read_iff (head : IsHead lines) (valid : ∀ line ∈ lines, Utf8.valid line = true) :
    (env.blocksWebsocket (closeHeaders lines ++ body) = env.blocksWebsocket (closeHeaders lines) ∧
        (env.blocksWebsocket (closeHeaders lines ++ body) = false →
          env.forwarded (closeHeaders lines ++ body) =
            env.forwarded (closeHeaders lines) ++ body)) ↔
      env.Unaffected (closeHeaders lines) (closeHeaders lines ++ body) := by
  have whole_valid := valid_closeHeaders head.ne_nil body
  have alone := (@HoldsHead.forwarded env lines [] _
    ⟨(List.append_nil _).symm, head, valid, rfl⟩).eq
  rw [List.append_nil] at alone
  rw [Unaffected, if_pos (List.prefix_append _ _), List.drop_left]
  cases body_valid : Utf8.valid body with
  | true =>
      have decodes := whole_valid.mpr ⟨valid, body_valid⟩
      have holds : HoldsHead body (closeHeaders lines ++ body) lines :=
        ⟨rfl, head, valid, body_valid⟩
      have filtered : HoldsHead body (env.forwarded _) (env.filteredLines lines) := holds.forwarded
      rw [if_pos decodes, blocksWebsocket_head head valid body_valid, alone, filtered.eq]
      cases env.blocksWebsocket (closeHeaders lines) <;> simp
  | false =>
      have undecoded : Utf8.valid (closeHeaders lines ++ body) = false := by
        by_contra decodes
        have parts := whole_valid.mp (by simpa using decodes)
        rw [body_valid] at parts
        exact Bool.false_ne_true parts.2
      rw [if_neg (by simp [undecoded]), blocksWebsocket_invalid undecoded,
        forwarded_invalid env undecoded, ← forwarded_eq_self_iff]
      refine and_congr eq_comm ?_
      rw [forall_prop_of_true rfl, List.append_left_inj, eq_comm]

/-- A first read that is only a part of the head. -/
theorem part_read_iff (head : IsHead lines) (valid : ∀ line ∈ lines, Utf8.valid line = true)
    (cut : first ++ rest = closeHeaders lines) (rest_ne : rest ≠ []) :
    (env.blocksWebsocket first = env.blocksWebsocket (closeHeaders lines) ∧
        (env.blocksWebsocket first = false →
          env.forwarded first ++ rest = env.forwarded (closeHeaders lines))) ↔
      env.Unaffected (closeHeaders lines) first := by
  have holds : HoldsHead [] (closeHeaders lines) lines :=
    ⟨(List.append_nil _).symm, head, valid, rfl⟩
  have filtered : HoldsHead [] (env.forwarded (closeHeaders lines)) (env.filteredLines lines) :=
    holds.forwarded
  have shorter : ¬ closeHeaders lines <+: first := by
    intro longer
    have lengths := longer.length_le
    have pos := List.length_pos_iff.mpr rest_ne
    rw [← cut, List.length_append] at lengths
    omega
  rw [Unaffected, if_neg shorter]
  refine and_congr_right fun same => ?_
  rw [same]
  refine imp_congr_right fun _ => ?_
  rw [forwarded_part head cut rest_ne, filtered.eq, List.append_nil]
  constructor
  · intro closed
    refine partLeaves_of_filteredLines holds ?_
    have part_head : IsHead (onlyIf (env.rewritePlan.queryParamStrip && seesRequestLine first)
        stripTarget lines) := by
      unfold onlyIf
      split
      · exact head.stripTarget
      · exact head
    exact (filtered.head.unique part_head (congrArg (· ++ []) closed.symm)).1
  · intro leaves
    rw [filteredLines_of_partLeaves holds leaves]

/-- The request is handled for its first read as for its head alone exactly when the cut does not
matter. -/
theorem first_read_iff (head : IsHead lines) (valid : ∀ line ∈ lines, Utf8.valid line = true)
    (cut : first ++ rest = closeHeaders lines ++ body) :
    (env.blocksWebsocket first = env.blocksWebsocket (closeHeaders lines) ∧
        (env.blocksWebsocket first = false →
          env.forwarded first ++ rest = env.forwarded (closeHeaders lines) ++ body)) ↔
      env.Unaffected (closeHeaders lines) first := by
  by_cases whole : closeHeaders lines <+: first
  · obtain ⟨front, rfl⟩ := whole
    rw [List.append_assoc] at cut
    obtain rfl := List.append_cancel_left cut
    rw [← whole_read_iff head valid, ← List.append_assoc, List.append_left_inj]
  · rcases List.append_eq_append_iff.mp cut with ⟨missing, head_eq, rfl⟩ | ⟨front, rfl, -⟩
    · have missing_ne : missing ≠ [] := by
        rintro rfl
        rw [List.append_nil] at head_eq
        exact whole (head_eq ▸ List.prefix_refl _)
      rw [← part_read_iff head valid head_eq.symm missing_ne, ← List.append_assoc,
        List.append_left_inj]
    · exact absurd (List.prefix_append _ _) whole

end FirstRead

/-! ## Runs -/

section Runs

variable {first : Bytes} {rest : List Bytes} {events : List RelayEvent} {outputs : List Effect}
  {status : Status RelayState RelayVerdict}

/-- What a stream has up to the end of its head is a head. -/
theorem exists_lines_of_headersEnd {stream : Bytes} {headerEnd : Nat}
    (found : findHeadersEnd stream = some headerEnd) :
    ∃ lines, IsHead lines ∧ stream.take headerEnd = closeHeaders lines := by
  obtain ⟨i, occurs, rfl⟩ := Option.map_eq_some_iff.mp found
  obtain ⟨lines, behind, head, rfl, -⟩ := exists_isHead occurs
  rw [head.findSub_close] at occurs
  obtain rfl := Option.some.inj occurs
  have length_eq : (joinCrlf lines).length + 4 = (closeHeaders lines).length := by
    simp [closeHeaders, crlfcrlf]
  exact ⟨lines, head, by rw [length_eq, List.take_left]⟩

/-- A client sends a head and a body in reads of any size, and the relay handles them, all of them
unless it answers the client.  The relay answers, or forwards, what it would for the head alone in
front of the unchanged body exactly when the first read is unaffected by the cut. -/
theorem request_handled_as_head_iff {headerEnd : Nat}
    (found : findHeadersEnd (first :: rest).flatten = some headerEnd)
    (valid : Utf8.valid ((first :: rest).flatten.take headerEnd) = true)
    (execution : env.relay.Run {} events outputs status) (started : clientReads events ≠ [])
    (received : clientReads events <+: first :: rest)
    (all_received : websocketBlocked outputs = false → clientReads events = first :: rest) :
    (websocketBlocked outputs =
          env.blocksWebsocket ((first :: rest).flatten.take headerEnd) ∧
        (websocketBlocked outputs = false →
          upstreamBytes outputs =
            env.forwarded ((first :: rest).flatten.take headerEnd) ++
              (first :: rest).flatten.drop headerEnd)) ↔
      env.Unaffected ((first :: rest).flatten.take headerEnd) first := by
  have report := run_report execution env.represents_initial
  have blocked : websocketBlocked outputs = env.blocksWebsocket first := by
    obtain ⟨read, reads, reads_eq⟩ := List.exists_cons_of_ne_nil started
    rw [reads_eq, List.cons_prefix_cons] at received
    rw [report.blocked, reads_eq, received.1]
    simp [blocksFirst]
  obtain ⟨lines, head, head_eq⟩ := exists_lines_of_headersEnd found
  have cut := (List.take_append_drop headerEnd (first :: rest).flatten).symm
  rw [head_eq] at cut valid ⊢
  have lines_valid := ((valid_closeHeaders head.ne_nil []).mp (by rwa [List.append_nil])).1
  rw [← first_read_iff head lines_valid cut, blocked]
  refine and_congr_right fun _ => imp_congr_right fun passes => ?_
  have upstream := report.upstream
  rw [blocked, passes, if_neg Bool.false_ne_true, all_received (blocked.trans passes)] at upstream
  have forwards : upstreamBytes outputs = env.forwarded first ++ rest.flatten := upstream
  rw [forwards]

end Runs

/-- A conditional request to a tracker, cut behind its first line or not at all. -/
def wholeRequest : List RelayEvent :=
  [.clientRead ⟨ascii "GET / HTTP/1.1\r\nIf-None-Match: 1\r\n\r\n", by decide, by decide⟩]

def cutRequest : List RelayEvent :=
  [.clientRead ⟨ascii "GET / HTTP/1.1\r\n", by decide, by decide⟩,
    .clientRead ⟨ascii "If-None-Match: 1\r\n\r\n", by decide, by decide⟩]

/-- The same request is filtered in one read and passes unfiltered in two. -/
theorem cut_request_is_not_filtered :
    ∃ whole cut status status',
      (sampleTunnel (.defaultForMode .enforce) trackerHost).relay.Run {} wholeRequest whole status ∧
      (sampleTunnel (.defaultForMode .enforce) trackerHost).relay.Run {} cutRequest cut status' ∧
      (clientReads wholeRequest).flatten = (clientReads cutRequest).flatten ∧
      websocketBlocked whole = false ∧ websocketBlocked cut = false ∧
      upstreamBytes whole ≠ upstreamBytes cut := by
  have whole_executes : ((sampleTunnel (.defaultForMode .enforce) trackerHost).relay.run {}
      wholeRequest).map (fun reaction =>
        (websocketBlocked reaction.outputs, upstreamBytes reaction.outputs)) =
      some (false, ascii "GET / HTTP/1.1\r\n\r\n") := by
    decide +kernel
  have cut_executes : ((sampleTunnel (.defaultForMode .enforce) trackerHost).relay.run {}
      cutRequest).map (fun reaction =>
        (websocketBlocked reaction.outputs, upstreamBytes reaction.outputs)) =
      some (false, ascii "GET / HTTP/1.1\r\nIf-None-Match: 1\r\n\r\n") := by
    decide +kernel
  obtain ⟨whole, status, whole_run, whole_observed⟩ := Machine.exists_run _ _ _ _ whole_executes
  obtain ⟨cut, status', cut_run, cut_observed⟩ := Machine.exists_run _ _ _ _ cut_executes
  obtain ⟨whole_passes, whole_sent⟩ := Prod.mk.inj whole_observed
  obtain ⟨cut_passes, cut_sent⟩ := Prod.mk.inj cut_observed
  refine ⟨whole, cut, status, status', whole_run, cut_run, by decide, whole_passes, cut_passes, ?_⟩
  rw [whole_sent, cut_sent]
  decide

/-- A conditional request with a body, cut inside the body. -/
def postEvents : List RelayEvent :=
  [.clientRead ⟨ascii "POST / HTTP/1.1\r\nIf-None-Match: x\r\n\r\nbo", by decide, by decide⟩,
    .clientRead ⟨ascii "dy", by decide, by decide⟩]

theorem post_is_handled_as_head :
    ∃ outputs status,
      (sampleTunnel (.defaultForMode .enforce) trackerHost).relay.Run {} postEvents outputs status ∧
      upstreamBytes outputs =
        (sampleTunnel (.defaultForMode .enforce) trackerHost).forwarded
          (ascii "POST / HTTP/1.1\r\nIf-None-Match: x\r\n\r\n") ++ ascii "body" := by
  have executes : ((sampleTunnel (.defaultForMode .enforce) trackerHost).relay.run {}
      postEvents).map (fun reaction => websocketBlocked reaction.outputs) = some false := by
    decide +kernel
  obtain ⟨outputs, status, execution, passes⟩ := Machine.exists_run _ _ _ _ executes
  have found : findHeadersEnd (clientReads postEvents).flatten = some 37 := by decide +kernel
  have unaffected : (sampleTunnel (.defaultForMode .enforce) trackerHost).Unaffected
      ((clientReads postEvents).flatten.take 37)
      (ascii "POST / HTTP/1.1\r\nIf-None-Match: x\r\n\r\nbo") := by
    rw [Unaffected, if_pos (by decide), if_pos (by decide)]
    decide +kernel
  have handled := (request_handled_as_head_iff found (by decide) execution (by decide)
    (List.prefix_refl _) fun _ => rfl).mpr unaffected
  exact ⟨outputs, status, execution, handled.2 passes⟩

end RelayEnv

end PrivacyEngine
