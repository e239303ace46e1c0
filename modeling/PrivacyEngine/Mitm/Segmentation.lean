import PrivacyEngine.Mitm.Conservation

/-!
# The response and how it is cut into reads

The relay looks at a held body when a read ends.  Where that does not matter, what the client is
sent is a function of the upstream stream.  It matters in three places: a read can take a chunked
message past the size limit together with its end, and the end of the stream is handled without the
size limit and without the Content-Length.  Cuts that avoid them all show the client the same
response.
-/

namespace PrivacyEngine

open Wire Reactive

namespace RelayEnv

variable (env : RelayEnv)

/-! ## What a settled cut shows -/

/-- What a client is sent for a held response, as a function of the bytes behind its headers. -/
def settled (headers after : Bytes) : Bytes :=
  let encoding := extractContentEncoding headers
  match framingOf headers with
  | .chunked =>
      match tryDecodeChunkedMessage after with
      | some (decoded, consumed) =>
          if consumed < env.rewritePlan.maxBodyBytes then
            (env.finishChunked headers env.rewritePlan encoding after decoded
              (after.drop consumed)).2.flatten
          else headers ++ after
      | none => headers ++ after
  | .length expected =>
      (env.finishPlain headers env.rewritePlan encoding (after.take expected)
        (after.drop expected)).2.flatten
  | .untilClose =>
      if env.rewritePlan.maxBodyBytes ≤ after.length then headers ++ after
      else (env.finishPlain headers env.rewritePlan encoding after []).2.flatten

/-- The bytes decide what is sent for the response; more bytes only follow it. -/
def Decided (headers after : Bytes) : Prop :=
  match framingOf headers with
  | .chunked =>
      (∃ decoded consumed, tryDecodeChunkedMessage after = some (decoded, consumed) ∧
        consumed < env.rewritePlan.maxBodyBytes) ∨
      (env.rewritePlan.maxBodyBytes ≤ after.length ∧ ∀ decoded consumed,
        tryDecodeChunkedMessage after = some (decoded, consumed) →
          env.rewritePlan.maxBodyBytes ≤ consumed)
  | .length expected => expected ≤ after.length
  | .untilClose => env.rewritePlan.maxBodyBytes ≤ after.length

theorem flatten_finishChunked (headers after decoded : Bytes) {consumed : Nat}
    (in_range : consumed ≤ after.length) (plan : BodyRewritePlan) (encoding : Option Str)
    (more : Bytes) :
    (env.finishChunked headers plan encoding (after ++ more) decoded
        ((after ++ more).drop consumed)).2.flatten =
      (env.finishChunked headers plan encoding after decoded (after.drop consumed)).2.flatten ++
        more := by
  unfold finishChunked
  dsimp only
  cases (env.attemptBodyRewrite decoded plan encoding).1 with
  | none => simp
  | some rewritten => simp [List.drop_append_of_le_length in_range]

theorem flatten_finishPlain (headers body overflow : Bytes) (plan : BodyRewritePlan)
    (encoding : Option Str) (more : Bytes) :
    (env.finishPlain headers plan encoding body (overflow ++ more)).2.flatten =
      (env.finishPlain headers plan encoding body overflow).2.flatten ++ more := by
  unfold finishPlain
  dsimp only
  cases (env.attemptBodyRewrite body plan encoding).1 <;> simp

variable {env} {headers after decoded : Bytes} {consumed expected : Nat}

theorem settled_of_decoded (framing : framingOf headers = .chunked)
    (decodes : tryDecodeChunkedMessage after = some (decoded, consumed))
    (below : consumed < env.rewritePlan.maxBodyBytes) :
    env.settled headers after =
      (env.finishChunked headers env.rewritePlan (extractContentEncoding headers) after decoded
        (after.drop consumed)).2.flatten := by
  simp only [settled, framing, decodes, if_pos below]

theorem settled_of_late (framing : framingOf headers = .chunked)
    (late : ∀ decoded consumed, tryDecodeChunkedMessage after = some (decoded, consumed) →
      env.rewritePlan.maxBodyBytes ≤ consumed) : env.settled headers after = headers ++ after := by
  simp only [settled, framing]
  split
  · rename_i decoded consumed decodes
    exact if_neg (not_lt.mpr (late decoded consumed decodes))
  · rfl

theorem settled_of_length (framing : framingOf headers = .length expected) :
    env.settled headers after =
      (env.finishPlain headers env.rewritePlan (extractContentEncoding headers)
        (after.take expected) (after.drop expected)).2.flatten := by
  simp only [settled, framing]

theorem settled_of_long (framing : framingOf headers = .untilClose)
    (long : env.rewritePlan.maxBodyBytes ≤ after.length) :
    env.settled headers after = headers ++ after := by
  simp only [settled, framing, if_pos long]

/-- Bytes behind a decided response are passed through. -/
theorem Decided.append (decided : env.Decided headers after) (more : Bytes) :
    env.Decided headers (after ++ more) ∧
      env.settled headers (after ++ more) = env.settled headers after ++ more := by
  unfold Decided at *
  cases framing : framingOf headers with
  | chunked =>
      rw [framing] at decided
      rcases decided with ⟨decoded, consumed, decodes, below⟩ | ⟨long, late⟩
      · have decodes' := tryDecode_append decodes more
        refine ⟨.inl ⟨decoded, consumed, decodes', below⟩, ?_⟩
        rw [settled_of_decoded framing decodes below, settled_of_decoded framing decodes' below]
        exact env.flatten_finishChunked headers after decoded
          (tryDecode_consumed_le decodes) _ _ more
      · have late' : ∀ decoded consumed,
            tryDecodeChunkedMessage (after ++ more) = some (decoded, consumed) →
              env.rewritePlan.maxBodyBytes ≤ consumed := by
          intro decoded consumed decodes
          by_cases inside : consumed ≤ after.length
          · have cut := tryDecode_cut decodes (after.drop consumed)
            rw [List.take_append_of_le_length inside, List.take_append_drop] at cut
            exact late decoded consumed cut
          · omega
        refine ⟨.inr ⟨by rw [List.length_append]; omega, late'⟩, ?_⟩
        rw [settled_of_late framing late, settled_of_late framing late', List.append_assoc]
  | length expected =>
      rw [framing] at decided
      have fits : expected ≤ after.length := decided
      refine ⟨fits.trans (by simp), ?_⟩
      rw [settled_of_length framing, settled_of_length framing,
        List.take_append_of_le_length fits, List.drop_append_of_le_length fits]
      exact env.flatten_finishPlain headers _ _ _ _ more
  | untilClose =>
      rw [framing] at decided
      have long : env.rewritePlan.maxBodyBytes ≤ after.length := decided
      have longer : env.rewritePlan.maxBodyBytes ≤ (after ++ more).length := long.trans (by simp)
      refine ⟨longer, ?_⟩
      rw [settled_of_long framing long, settled_of_long framing longer, List.append_assoc]

/-! ## Cuts that do not matter -/

variable (env) in
/-- A read does not take a chunked message past the size limit when the message itself is below
it. -/
def SteadyRead (phase : ResponsePhase) (chunk : Bytes) : Prop :=
  match phase with
  | .holdingBody headers body =>
      framingOf headers = .chunked → env.rewritePlan.maxBodyBytes ≤ (body ++ chunk).length →
        ∀ decoded consumed, tryDecodeChunkedMessage (body ++ chunk) = some (decoded, consumed) →
          env.rewritePlan.maxBodyBytes ≤ consumed
  | _ => True

variable (env) in
/-- A body that is held when the stream ends is not longer than announced and below the size
limit. -/
def SteadyEnd (phase : ResponsePhase) : Prop :=
  match phase with
  | .holdingBody headers body =>
      match framingOf headers with
      | .chunked => ∀ decoded consumed, tryDecodeChunkedMessage body = some (decoded, consumed) →
          consumed < env.rewritePlan.maxBodyBytes
      | .length expected => body.length ≤ expected
      | .untilClose => body.length < env.rewritePlan.maxBodyBytes
  | _ => True

variable (env) in
/-- No read and no end of the stream finds the held body where the cut matters. -/
structure Steady (reads : List Bytes) : Prop where
  read : ∀ front chunk, front ++ [chunk] <+: reads → env.SteadyRead (env.afterReads front).2 chunk
  close : env.SteadyEnd (env.afterReads reads).2

variable (env) in
/-- What is sent for the first response, given the policy's headers. -/
def Shown (headers after shown : Bytes) : Prop :=
  ¬ env.Holds headers ∧ shown = headers ++ after ∨
    env.Holds headers ∧ shown = env.settled headers after

variable {reads : List Bytes} {effects : List Effect}

/-- A body that has grown in a steady read stays held or is decided. -/
theorem growBody_settles {body : Bytes} (holds : env.Holds headers)
    (steady : framingOf headers = .chunked → env.rewritePlan.maxBodyBytes ≤ body.length →
      ∀ decoded consumed, tryDecodeChunkedMessage body = some (decoded, consumed) →
        env.rewritePlan.maxBodyBytes ≤ consumed) :
    (env.growBody headers body).2 = .holdingBody headers body ∨
      (env.growBody headers body).2 = .passingThrough ∧ env.Decided headers body ∧
        clientBytes (env.growBody headers body).1 = env.settled headers body := by
  unfold growBody Decided
  dsimp only
  cases framing : framingOf headers with
  | chunked =>
      dsimp only
      split
      · rename_i long
        have late := steady framing long
        refine .inr ⟨rfl, .inr ⟨long, late⟩, ?_⟩
        rw [settled_of_late framing late]
        simp [skipBody, Effect.toClient]
      · rename_i short
        split
        · rename_i decoded consumed decodes
          have below : consumed < env.rewritePlan.maxBodyBytes :=
            lt_of_le_of_lt (tryDecode_consumed_le decodes) (not_le.mp short)
          refine .inr ⟨rfl, .inl ⟨decoded, consumed, decodes, below⟩, ?_⟩
          rw [settled_of_decoded framing decodes below]
          simp [sendBody]
        · exact .inl rfl
  | length expected =>
      dsimp only
      split
      · rename_i fits
        refine .inr ⟨rfl, fits, ?_⟩
        rw [settled_of_length framing]
        simp [sendBody]
      · rename_i short
        split
        · rename_i long
          have bounded := holds.2 expected (framingOf_eq_length framing).2
          omega
        · exact .inl rfl
  | untilClose =>
      dsimp only
      split
      · rename_i long
        refine .inr ⟨rfl, long, ?_⟩
        rw [settled_of_long framing long]
        simp [skipBody, Effect.toClient]
      · exact .inl rfl

variable (env) in
/-- Once bytes are passed through, what has been sent for the first response is settled. -/
def Settles (reads : List Bytes) (effects : List Effect) (phase : ResponsePhase) : Prop :=
  phase = .passingThrough → ∀ headers after, env.Opened reads headers after →
    ¬ env.Holds headers ∧ clientBytes effects = headers ++ after ∨
      env.Holds headers ∧ env.Decided headers after ∧
        clientBytes effects = env.settled headers after

theorem Settles.openResponse {headerEnd : Nat} (found : HeadersFound reads)
    (occurs : findHeadersEnd reads.flatten = some headerEnd) (silent : clientBytes effects = []) :
    env.Settles reads
      (effects ++
        (env.openResponse (reads.flatten.take headerEnd) (reads.flatten.drop headerEnd)).1)
      (env.openResponse (reads.flatten.take headerEnd) (reads.flatten.drop headerEnd)).2 := by
  have opened : env.Opened reads _ _ := ⟨found, headerEnd, occurs, rfl, rfl⟩
  have quiet := clientBytes_of_bookkeeping
    (env.bookkeeping_headerEffects (reads.flatten.take headerEnd))
  unfold RelayEnv.openResponse
  dsimp only
  split
  · split
    · rename_i exceeds
      intro _ headers after opened'
      obtain ⟨rfl, rfl⟩ := opened.unique opened'
      refine .inl ⟨fun holds => ?_, by simp [silent, quiet, Effect.toClient]⟩
      obtain ⟨expected, announced, above⟩ := (Option.any_eq_true _ _).mp exceeds
      have bounded := holds.2 expected announced
      rw [decide_eq_true_iff] at above
      omega
    · rintro ⟨⟩
  · rename_i unwritable
    intro _ headers after opened'
    obtain ⟨rfl, rfl⟩ := opened.unique opened'
    exact .inl ⟨fun holds => unwritable holds.1, by simp [silent, quiet, Effect.toClient]⟩

/-- A steady read keeps what is sent settled. -/
theorem Settles.read {phase : ResponsePhase} (settles : env.Settles reads effects phase)
    (reached : env.Reached reads effects phase) {chunk : Bytes}
    (steady : env.SteadyRead phase chunk) :
    env.Settles (reads ++ [chunk]) (effects ++ (env.phaseStep phase (.read chunk)).1)
      (env.phaseStep phase (.read chunk)).2 := by
  have whole : (reads ++ [chunk]).flatten = reads.flatten ++ chunk := by simp
  cases phase with
  | awaitingHeaders pending =>
      obtain ⟨rfl, unfound, silent, -⟩ := reached
      rw [phaseStep]
      split
      · rename_i exceeds
        intro _ headers after opened
        have unfound' := not_headersFound_snoc unfound fun short =>
          absurd short (not_le.mpr exceeds)
        exact absurd opened.1 unfound'
      · rename_i short
        split
        · rintro ⟨⟩
        · rename_i headerEnd occurs
          rw [← whole] at occurs short ⊢
          have found : HeadersFound (reads ++ [chunk]) :=
            ⟨_, List.prefix_refl _, not_lt.mp short, by rw [occurs]; rfl⟩
          exact .openResponse found occurs silent
  | holdingBody headers body =>
      obtain ⟨opened, holds, silent, -⟩ := reached
      rw [phaseStep]
      rcases growBody_settles holds steady with held | ⟨passing, decided, sent⟩
      · rw [held]
        rintro ⟨⟩
      · intro _ headers' after opened'
        obtain ⟨rfl, rfl⟩ := (opened.snoc chunk).unique opened'
        exact .inr ⟨holds, decided, by simp [silent, sent]⟩
  | passingThrough =>
      intro _ headers after opened
      have found : HeadersFound reads := by
        by_contra unfound
        have long := (Image.of_unfound reached unfound).2.2.resolve_left Bool.false_ne_true
        refine not_headersFound_snoc unfound (fun short => ?_) opened.1
        rw [List.length_append] at short
        omega
      obtain ⟨after', opened', rfl⟩ := opened.of_snoc found
      rcases settles rfl headers after' opened' with ⟨free, sent⟩ | ⟨holds, decided, sent⟩
      · exact .inl ⟨free, by simp [phaseStep, Effect.toClient, sent]⟩
      · obtain ⟨decided', settled⟩ := decided.append chunk
        exact .inr ⟨holds, decided', by simp [phaseStep, Effect.toClient, sent, settled]⟩
  | ended => rintro ⟨⟩

/-- Steady reads keep what is sent settled. -/
theorem settles_afterReads
    (steady : ∀ front chunk, front ++ [chunk] <+: reads →
      env.SteadyRead (env.afterReads front).2 chunk) :
    env.Settles reads (env.afterReads reads).1 (env.afterReads reads).2 := by
  induction reads using List.reverseRecOn with
  | nil => rintro ⟨⟩
  | append_singleton reads chunk ih =>
      have before := ih fun front next part =>
        steady front next (part.trans (List.prefix_append _ _))
      rw [afterReads_snoc]
      exact before.read (env.reached_afterReads reads).1 (steady reads chunk (List.prefix_refl _))

/-- A body that is held at a steady end of the stream is settled by it. -/
theorem flushHeld_settled {body : Bytes} (steady : env.SteadyEnd (.holdingBody headers body)) :
    clientBytes (env.flushHeld headers body).1 = [] ∧
      (env.flushHeld headers body).2.flatten = env.settled headers body := by
  unfold SteadyEnd at steady
  unfold flushHeld
  dsimp only at steady ⊢
  cases framing : framingOf headers with
  | chunked =>
      rw [framing] at steady
      dsimp only at steady ⊢
      cases decodes : tryDecodeChunkedMessage body with
      | none =>
          have late : env.settled headers body = headers ++ body :=
            settled_of_late framing (by simp [decodes])
          simp [late]
      | some message =>
          obtain ⟨decoded, consumed⟩ := message
          rw [settled_of_decoded framing decodes (steady decoded consumed decodes)]
          exact ⟨by simp, rfl⟩
  | length expected =>
      rw [framing] at steady
      have fits : body.length ≤ expected := steady
      rw [settled_of_length framing, List.take_of_length_le fits, List.drop_of_length_le fits]
      exact ⟨by simp, rfl⟩
  | untilClose =>
      rw [framing] at steady
      have short : ¬ env.rewritePlan.maxBodyBytes ≤ body.length := not_le.mpr steady
      refine ⟨by simp, ?_⟩
      simp only [settled, framing, if_neg short]

/-- At a steady end of the stream the client has been sent the settled response. -/
theorem shown_of_steady (steady : env.Steady reads) (opened : env.Opened reads headers after) :
    env.Shown headers after
      (clientBytes ((env.afterReads reads).1 ++
        (env.phaseStep (env.afterReads reads).2 .eof).1)) := by
  have settles := settles_afterReads steady.read
  have close := steady.close
  obtain ⟨reached, still_open⟩ := env.reached_afterReads reads
  cases phase : (env.afterReads reads).2 with
  | awaitingHeaders pending =>
      rw [phase] at reached
      exact absurd opened.1 reached.2.1
  | holdingBody headers' body =>
      rw [phase] at reached close
      obtain ⟨opened', holds, silent, -⟩ := reached
      obtain ⟨rfl, rfl⟩ := opened.unique opened'
      refine .inr ⟨holds, ?_⟩
      obtain ⟨quiet, sent⟩ := flushHeld_settled close
      simp [phaseStep, silent, quiet, sent, Effect.toClient]
  | passingThrough =>
      rw [phase] at settles
      rcases settles rfl headers after opened with ⟨free, sent⟩ | ⟨holds, -, sent⟩
      · exact .inl ⟨free, by simp [phaseStep, sent, Effect.toClient]⟩
      · exact .inr ⟨holds, by simp [phaseStep, sent, Effect.toClient]⟩
  | ended => exact absurd phase still_open

/-! ## Two cuts of one stream -/

/-- Reads of bounded size find a header block that ends one read before the limit. -/
theorem headersFound_of_short {headerEnd bound : Nat}
    (bounded : ∀ chunk ∈ reads, chunk.length ≤ bound)
    (occurs : findHeadersEnd reads.flatten = some headerEnd)
    (short : headerEnd + bound ≤ maxHttp1HeaderBytes + 1) : HeadersFound reads := by
  induction reads using List.reverseRecOn with
  | nil => cases occurs
  | append_singleton reads chunk ih =>
      have whole : (reads ++ [chunk]).flatten = reads.flatten ++ chunk := by simp
      obtain ⟨reads_bounded, chunk_bounded⟩ := List.forall_mem_append.mp bounded
      by_cases inside : headerEnd ≤ reads.flatten.length
      · refine (ih reads_bounded ?_).snoc chunk
        obtain ⟨i, found, rfl⟩ := Option.map_eq_some_iff.mp occurs
        refine Option.map_eq_some_iff.mpr ⟨i, ?_, rfl⟩
        rw [whole] at found
        have cut := findSub_take crlfcrlf_ne_nil found inside
        rwa [List.take_left] at cut
      · refine ⟨_, List.prefix_refl _, ?_, by rw [occurs]; rfl⟩
        have chunk_le := chunk_bounded chunk List.mem_cons_self
        rw [whole, List.length_append]
        omega

theorem upstreamReads_bounded (events : List RelayEvent) :
    ∀ chunk ∈ upstreamReads events, chunk.length ≤ readBufferBytes := by
  intro bytes mem
  obtain ⟨event, -, carried⟩ := List.mem_flatMap.mp mem
  cases event with
  | upstreamRead chunk =>
      obtain rfl := List.mem_singleton.mp carried
      exact chunk.fits
  | _ => cases carried

theorem Shown.unique {shown shown' : Bytes} (first : env.Shown headers after shown)
    (second : env.Shown headers after shown') : shown = shown' := by
  rcases first with ⟨free, rfl⟩ | ⟨holds, rfl⟩
  · rcases second with ⟨-, rfl⟩ | ⟨holds, -⟩
    · rfl
    · exact absurd holds free
  · rcases second with ⟨free, -⟩ | ⟨-, rfl⟩
    · exact absurd holds free
    · rfl

variable {events events' : List RelayEvent} {outputs outputs' : List Effect}
  {status status' : Status RelayState RelayVerdict}

theorem shown_of_run (execution : env.relay.Run {} events outputs status)
    (ended : .upstreamEof ∈ events) (unblocked : websocketBlocked outputs = false)
    (steady : env.Steady (upstreamReads events))
    (opened : env.Opened (upstreamReads events) headers after) :
    env.Shown headers after (clientBytes outputs) := by
  have client := (clientBytes_of_run execution).1
  rw [blockedReply, unblocked, if_neg Bool.false_ne_true, List.append_nil,
    afterEvents_of_ended execution ended] at client
  rw [client]
  exact shown_of_steady steady opened

/-- Two runs over the same upstream stream, cut in two ways that do not matter, send the client the
same bytes. -/
theorem response_independent_of_cut (execution : env.relay.Run {} events outputs status)
    (execution' : env.relay.Run {} events' outputs' status') (ended : .upstreamEof ∈ events)
    (ended' : .upstreamEof ∈ events') (unblocked : websocketBlocked outputs = false)
    (unblocked' : websocketBlocked outputs' = false)
    (same : (upstreamReads events).flatten = (upstreamReads events').flatten)
    (short : ∀ headerEnd, findHeadersEnd (upstreamReads events).flatten = some headerEnd →
      headerEnd ≤ maxHttp1HeaderBytes - 8191)
    (steady : env.Steady (upstreamReads events)) (steady' : env.Steady (upstreamReads events')) :
    clientBytes outputs = clientBytes outputs' := by
  cases occurs : findHeadersEnd (upstreamReads events).flatten with
  | none =>
      have unfound : ∀ reads : List Bytes, reads.flatten = (upstreamReads events).flatten →
          ¬ HeadersFound reads := by
        intro reads reads_eq found
        obtain ⟨headerEnd, found⟩ := exists_headersEnd found
        rw [reads_eq, occurs] at found
        cases found
      obtain ⟨shown, client, outcome⟩ := outcome_of_run execution ended
      obtain ⟨shown', client', outcome'⟩ := outcome_of_run execution' ended'
      rw [client, client', blockedReply_of_unblocked unblocked,
        blockedReply_of_unblocked unblocked', outcome.of_unfound (unfound _ rfl),
        outcome'.of_unfound (unfound _ same.symm), same]
  | some headerEnd =>
      have in_time : headerEnd + readBufferBytes ≤ maxHttp1HeaderBytes + 1 := by
        have bound := short headerEnd occurs
        unfold maxHttp1HeaderBytes at bound ⊢
        unfold readBufferBytes
        omega
      have occurs' := same ▸ occurs
      have found := headersFound_of_short (upstreamReads_bounded events) occurs in_time
      have found' := headersFound_of_short (upstreamReads_bounded events') occurs' in_time
      have opened : env.Opened (upstreamReads events) _ _ := ⟨found, headerEnd, occurs, rfl, rfl⟩
      have opened' : env.Opened (upstreamReads events') _ _ :=
        ⟨found', headerEnd, occurs', rfl, rfl⟩
      rw [← same] at opened'
      exact (shown_of_run execution ended unblocked steady opened).unique
        (shown_of_run execution' ended' unblocked' steady' opened')

/-- A page followed by two bytes more than it announces, in one read or cut in front of them. -/
def wholePage : List RelayEvent :=
  [.upstreamRead
    ⟨ascii "HTTP/1.1 200 OK\r\nContent-Type: text/html\r\nContent-Length: 2\r\n\r\nokXX",
    by decide, by decide⟩, .upstreamEof]

def cutPage : List RelayEvent :=
  [.upstreamRead ⟨ascii "HTTP/1.1 200 OK\r\nContent-Type: text/html\r\nContent-Length: 2\r\n\r\nok",
    by decide, by decide⟩, .upstreamRead ⟨ascii "XX", by decide, by decide⟩, .upstreamEof]

/-- In one read the bytes behind the page are rewritten as part of it, in two they are not. -/
theorem cut_changes_the_page :
    ∃ whole cut status status',
      (pageTunnel .enforce).relay.Run {} wholePage whole status ∧
      (pageTunnel .enforce).relay.Run {} cutPage cut status' ∧
      (upstreamReads wholePage).flatten = (upstreamReads cutPage).flatten ∧
      websocketBlocked whole = false ∧ websocketBlocked cut = false ∧
      clientBytes whole ≠ clientBytes cut := by
  have whole_executes : ((pageTunnel .enforce).relay.run {} wholePage).map (fun reaction =>
      (websocketBlocked reaction.outputs, clientBytes reaction.outputs)) =
      some (false,
        ascii "HTTP/1.1 200 OK\r\nContent-Type: text/html\r\nContent-Length: 4\r\n\r\nokXX") := by
    decide +kernel
  have cut_executes : ((pageTunnel .enforce).relay.run {} cutPage).map (fun reaction =>
      (websocketBlocked reaction.outputs, clientBytes reaction.outputs)) =
      some (false,
        ascii "HTTP/1.1 200 OK\r\nContent-Type: text/html\r\nContent-Length: 2\r\n\r\nokXX") := by
    decide +kernel
  obtain ⟨whole, status, whole_run, whole_observed⟩ := Machine.exists_run _ _ _ _ whole_executes
  obtain ⟨cut, status', cut_run, cut_observed⟩ := Machine.exists_run _ _ _ _ cut_executes
  obtain ⟨whole_passes, whole_sent⟩ := Prod.mk.inj whole_observed
  obtain ⟨cut_passes, cut_sent⟩ := Prod.mk.inj cut_observed
  refine ⟨whole, cut, status, status', whole_run, cut_run, by decide, whole_passes, cut_passes, ?_⟩
  rw [whole_sent, cut_sent]
  decide

theorem steady_pair {left right : Bytes} (second : env.SteadyRead (env.afterReads [left]).2 right)
    (close : env.SteadyEnd (env.afterReads [left, right]).2) : env.Steady [left, right] := by
  refine ⟨fun front chunk part => ?_, close⟩
  cases front with
  | nil => trivial
  | cons first front =>
      rw [List.cons_append, List.cons_prefix_cons] at part
      obtain ⟨rfl, part⟩ := part
      cases front with
      | nil =>
          obtain rfl : chunk = right := by simpa using part
          exact second
      | cons next front =>
          have lengths := part.length_le
          simp at lengths

/-- A page cut inside its body, and the same page cut inside its headers. -/
def bodyCutPage : List RelayEvent :=
  [.upstreamRead ⟨ascii "HTTP/1.1 200 OK\r\nContent-Type: text/html\r\nContent-Length: 2\r\n\r\no",
    by decide, by decide⟩, .upstreamRead ⟨ascii "k", by decide, by decide⟩, .upstreamEof]

def headerCutPage : List RelayEvent :=
  [.upstreamRead ⟨ascii "HTTP/1.1 200 OK\r\nContent-Ty", by decide, by decide⟩,
    .upstreamRead ⟨ascii "pe: text/html\r\nContent-Length: 2\r\n\r\nok", by decide, by decide⟩,
    .upstreamEof]

theorem steady_cuts_show_the_page :
    ∃ outputs outputs' status status',
      (pageTunnel .enforce).relay.Run {} bodyCutPage outputs status ∧
      (pageTunnel .enforce).relay.Run {} headerCutPage outputs' status' ∧
      clientBytes outputs = clientBytes outputs' := by
  have executes : ((pageTunnel .enforce).relay.run {} bodyCutPage).map (fun reaction =>
      websocketBlocked reaction.outputs) = some false := by
    decide +kernel
  have executes' : ((pageTunnel .enforce).relay.run {} headerCutPage).map (fun reaction =>
      websocketBlocked reaction.outputs) = some false := by
    decide +kernel
  obtain ⟨outputs, status, execution, unblocked⟩ := Machine.exists_run _ _ _ _ executes
  obtain ⟨outputs', status', execution', unblocked'⟩ := Machine.exists_run _ _ _ _ executes'
  have held : ((pageTunnel .enforce).afterReads
      [ascii "HTTP/1.1 200 OK\r\nContent-Type: text/html\r\nContent-Length: 2\r\n\r\no"]).2 =
      .holdingBody (ascii "HTTP/1.1 200 OK\r\nContent-Type: text/html\r\nContent-Length: 2\r\n\r\n")
        (ascii "o") := by
    decide +kernel
  have sent : ((pageTunnel .enforce).afterReads (upstreamReads bodyCutPage)).2 =
      .passingThrough := by
    decide +kernel
  have steady : (pageTunnel .enforce).Steady (upstreamReads bodyCutPage) := by
    refine steady_pair ?_ ?_
    · rw [held]
      exact fun chunked => absurd chunked (by decide +kernel)
    · change (pageTunnel .enforce).SteadyEnd
        ((pageTunnel .enforce).afterReads (upstreamReads bodyCutPage)).2
      rw [sent]
      trivial
  have waiting : ((pageTunnel .enforce).afterReads [ascii "HTTP/1.1 200 OK\r\nContent-Ty"]).2 =
      .awaitingHeaders (ascii "HTTP/1.1 200 OK\r\nContent-Ty") := by
    decide +kernel
  have held' : ((pageTunnel .enforce).afterReads (upstreamReads headerCutPage)).2 =
      .holdingBody (ascii "HTTP/1.1 200 OK\r\nContent-Type: text/html\r\nContent-Length: 2\r\n\r\n")
        (ascii "ok") := by
    decide +kernel
  have framing : framingOf
      (ascii "HTTP/1.1 200 OK\r\nContent-Type: text/html\r\nContent-Length: 2\r\n\r\n") =
      .length 2 := by
    decide +kernel
  have steady' : (pageTunnel .enforce).Steady (upstreamReads headerCutPage) := by
    refine steady_pair ?_ ?_
    · rw [waiting]
      trivial
    · change (pageTunnel .enforce).SteadyEnd
        ((pageTunnel .enforce).afterReads (upstreamReads headerCutPage)).2
      rw [held']
      simp only [SteadyEnd, framing]
      decide
  have header_end : findHeadersEnd (upstreamReads bodyCutPage).flatten = some 63 := by
    decide +kernel
  refine ⟨outputs, outputs', status, status', execution, execution',
    response_independent_of_cut execution execution' (by decide) (by decide) unblocked unblocked'
      (by decide) (fun headerEnd occurs => ?_) steady steady'⟩
  obtain rfl := Option.some.inj (header_end.symm.trans occurs)
  decide

end RelayEnv

end PrivacyEngine
