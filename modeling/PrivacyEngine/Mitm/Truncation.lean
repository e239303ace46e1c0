import PrivacyEngine.Mitm.Conservation
import PrivacyEngine.Mitm.DeclaredFraming

/-!
# Truncated responses

A response is truncated when the bytes behind its header block fall short of the framing the block
declares.  The relay may hide that: at the end of the stream it rewrites whatever it holds of a
body with a Content-Length and announces the length of the result, and the policy may change the
header block.  When neither happens the client still sees a truncated response.
-/

namespace PrivacyEngine

open Wire Reactive

/-- A body falls short of what its header block declares. -/
def truncatedBody (headers body : Bytes) : Bool :=
  if declaresChunked headers then (tryDecodeChunkedMessage body).isNone
  else (extractContentLength headers).any (body.length < ·)

/-- A response falls short of what its own header block declares. -/
def truncated (response : Bytes) : Bool :=
  match findHeadersEnd response with
  | some headerEnd => truncatedBody (response.take headerEnd) (response.drop headerEnd)
  | none => false

namespace RelayEnv

variable (env : RelayEnv)

/-- The body that the relay takes a held message for when the stream ends. -/
def heldBody (headers after : Bytes) : Option Bytes :=
  match framingOf headers with
  | .chunked => (tryDecodeChunkedMessage after).map Prod.fst
  | .length _ | .untilClose => some after

/-- The relay holds the body back and its rewriting succeeds. -/
def Replaces (headers after : Bytes) : Prop :=
  env.Holds headers ∧ ((heldBody headers after).bind (env.rewriting headers)).isSome = true

/-- Behind the policy's header block the response still falls short of its own framing, and the
relay does not replace its body. -/
def KeepsTruncation (reads : List Bytes) : Prop :=
  ∀ headers after, env.Opened reads headers after →
    truncated (headers ++ after) = true ∧ ¬ env.Replaces headers after

variable {env} {reads : List Bytes} {headers after : Bytes}

/-! ## What a client declares truncated -/

/-- A truncated body that the policy's block declares chunked cannot be decoded. -/
theorem Opened.undecoded (opened : env.Opened reads headers after)
    (cut : truncated reads.flatten = true) (declares : declaresChunked headers = true) :
    tryDecodeChunkedMessage after = none := by
  obtain ⟨-, headerEnd, occurs, rfl, rfl⟩ := opened
  have received := declaresChunked_of_outputHeaders (findHeadersEnd_take occurs) declares
  simpa [truncated, occurs, truncatedBody, received] using cut

/-- A client that misses bytes of a block which does not declare chunks misses them for the length
that the whole block announces. -/
theorem short_of_truncated (closed : crlfcrlf <:+ headers) (plain : declaresChunked headers = false)
    (short : truncated (headers ++ after) = true) :
    ∃ expected, extractContentLength headers = some expected ∧ after.length < expected := by
  have found : (findHeadersEnd headers).isSome = true := by
    rw [findHeadersEnd, Option.isSome_map, isSome_findSub_iff crlfcrlf_ne_nil]
    exact closed.isInfix
  obtain ⟨headerEnd, found⟩ := Option.isSome_iff_exists.mp found
  have in_range := findHeadersEnd_le found
  have whole := List.take_append_drop headerEnd headers
  have front_closed := crlfcrlf_suffix_of_terminated (findHeadersEnd_take found)
  have plain_front : declaresChunked (headers.take headerEnd) = false := by
    rw [← Bool.not_eq_true] at plain ⊢
    intro declares
    have later := declaresChunked_append front_closed declares (headers.drop headerEnd)
    rw [whole] at later
    exact plain later
  rw [truncated, findHeadersEnd_append found after] at short
  simp only [List.take_append_of_le_length in_range, List.drop_append_of_le_length in_range,
    truncatedBody, plain_front, Bool.false_eq_true, if_false, Option.any_eq_true,
    decide_eq_true_eq, List.length_append] at short
  obtain ⟨expected, announced, missing⟩ := short
  have announced' := extractContentLength_append front_closed announced (headers.drop headerEnd)
  rw [whole] at announced'
  exact ⟨expected, announced', by omega⟩

theorem Opened.closed (opened : env.Opened reads headers after) : crlfcrlf <:+ headers := by
  obtain ⟨-, headerEnd, occurs, rfl, -⟩ := opened
  exact crlfcrlf_suffix_outputHeaders (findHeadersEnd_take occurs)

/-- A response that the relay would replace and that falls short for a client has a length. -/
theorem Opened.short_of_replaces (opened : env.Opened reads headers after)
    (cut : truncated reads.flatten = true) (short : truncated (headers ++ after) = true)
    (replaces : env.Replaces headers after) :
    ∃ expected, extractContentLength headers = some expected ∧ after.length < expected := by
  cases declares : declaresChunked headers with
  | false => exact short_of_truncated opened.closed declares short
  | true =>
      have framing := framingOf_chunked (chunked_of_declaresChunked declares)
      have nothing := replaces.2
      rw [heldBody, framing, opened.undecoded cut declares] at nothing
      cases nothing

/-- A replaced body fills the length announced for it. -/
theorem not_truncated_of_reframed {dropped : List Str} (named : contentLengthField ∈ dropped)
    (plain : declaresChunked headers = false) (rewritten rest : Bytes) :
    truncated (reframe dropped headers rewritten.length ++ (rewritten ++ rest)) = false := by
  have plain' : declaresChunked (reframe dropped headers rewritten.length) = false := by
    rw [← Bool.not_eq_true] at plain ⊢
    exact mt declaresChunked_of_reframe plain
  rw [truncated, findHeadersEnd_reframe]
  simp only [List.take_left, List.drop_left, truncatedBody, plain', Bool.false_eq_true, if_false,
    extractContentLength_reframe named]
  split <;> simp

/-- What a client is shown of a truncated response is the policy's version of it, or a replacement
that looks complete. -/
theorem Outcome.shows_of_cut {shown : Bytes} {applied : Bool}
    (outcome : env.Outcome reads shown applied) (cut : truncated reads.flatten = true)
    (opened : env.Opened reads headers after) :
    shown = headers ++ after ∧ applied = false ∨ truncated shown = false := by
  have plain_of : ∀ {headers after : Bytes}, env.Opened reads headers after →
      (framingOf headers = .chunked → (tryDecodeChunkedMessage after).isSome = true) →
        declaresChunked headers = false := by
    intro headers after opened decodes
    rw [← Bool.not_eq_true]
    intro declares
    have decoded := decodes (framingOf_chunked (chunked_of_declaresChunked declares))
    rw [opened.undecoded cut declares] at decoded
    cases decoded
  have plain_block : ∀ {headers after : Bytes} (rewritten rest : Bytes),
      env.Opened reads headers after → framingOf headers ≠ .chunked →
        truncated (replaceContentLength headers rewritten.length ++ (rewritten ++ rest)) = false :=
    fun rewritten rest opened framing =>
      not_truncated_of_reframed (by simp)
        (plain_of opened fun chunked => absurd chunked framing) _ _
  cases outcome with
  | @overrun headers' after' rewritten expected opened' holds framing exceeds applies =>
      have complete := plain_block rewritten [] opened' (by simp [framing])
      rw [List.append_nil] at complete
      exact .inr complete
  | image shown =>
      cases shown with
      | verbatim unfound settled => exact absurd opened.1 unfound
      | filtered opened' =>
          obtain ⟨rfl, rfl⟩ := opened.unique opened'
          exact .inl ⟨rfl, rfl⟩
      | chunked opened' holds framing decodes applies =>
          rw [List.append_assoc]
          exact .inr (not_truncated_of_reframed (by simp)
            (plain_of opened' fun _ => by rw [decodes]; rfl) _ _)
      | complete opened' holds framing fits applies =>
          rw [List.append_assoc]
          exact .inr (plain_block _ _ opened' (by simp [framing]))
      | @cutShort headers' after' rewritten expected opened' ended holds framing short applies =>
          have complete := plain_block rewritten [] opened' (by simp [framing])
          rw [List.append_nil] at complete
          exact .inr complete
      | @untilClose headers' after' rewritten opened' ended holds framing applies =>
          have complete := plain_block rewritten [] opened' (by simp [framing])
          rw [List.append_nil] at complete
          exact .inr complete

/-- Where a truncated response is not replaced, the client is shown a truncated one. -/
theorem Outcome.keeps_truncation {shown : Bytes} {applied : Bool}
    (outcome : env.Outcome reads shown applied) (cut : truncated reads.flatten = true)
    (kept : env.KeepsTruncation reads) : truncated shown = true := by
  have replaced : ∀ {headers after rewritten : Bytes}, env.Opened reads headers after →
      env.Holds headers → framingOf headers ≠ .chunked →
      env.rewriting headers after = some rewritten → truncated shown = true := by
    intro headers after rewritten opened holds framing applies
    refine absurd ⟨holds, ?_⟩ (kept _ _ opened).2
    unfold heldBody
    split
    · rename_i chunked
      exact absurd chunked framing
    all_goals simp [applies]
  cases outcome with
  | overrun opened holds framing exceeds applies =>
      exact replaced opened holds (by simp [framing]) applies
  | image shown =>
      cases shown with
      | verbatim unfound settled => exact cut
      | filtered opened => exact (kept _ _ opened).1
      | chunked opened holds framing decodes applies =>
          refine absurd ⟨holds, ?_⟩ (kept _ _ opened).2
          simp [heldBody, framing, decodes, applies]
      | @complete headers after rewritten length opened holds framing fits applies =>
          obtain ⟨plain, announced⟩ := framingOf_eq_length framing
          have undeclared : declaresChunked headers = false := by
            rw [← Bool.not_eq_true] at plain ⊢
            exact mt chunked_of_declaresChunked plain
          obtain ⟨expected, announced', short⟩ :=
            short_of_truncated opened.closed undeclared (kept _ _ opened).1
          obtain rfl := Option.some.inj (announced.symm.trans announced')
          omega
      | cutShort opened ended holds framing short applies =>
          exact replaced opened holds (by simp [framing]) applies
      | untilClose opened ended holds framing applies =>
          exact replaced opened holds (by simp [framing]) applies

/-! ## When the relay replaces a truncated body -/

/-- A chunked body below the limit is held until it can be decoded, and then replaced when its
rewriting succeeds. -/
theorem chunked_of_short (opened : env.Opened reads headers after) (holds : env.Holds headers)
    (framing : framingOf headers = .chunked) (below : after.length < env.rewritePlan.maxBodyBytes) :
    (env.afterReads reads).2 = .holdingBody headers after ∨
      (env.afterReads reads).2 = .passingThrough ∧ ∃ decoded consumed,
        tryDecodeChunkedMessage after = some (decoded, consumed) ∧
        rewriteApplied (env.afterReads reads).1 = (env.rewriting headers decoded).isSome := by
  induction reads using List.reverseRecOn generalizing after with
  | nil =>
      obtain ⟨-, headerEnd, occurs, -⟩ := opened
      cases occurs
  | append_singleton reads chunk ih =>
      by_cases found : HeadersFound reads
      · obtain ⟨after', opened', rfl⟩ := opened.of_snoc found
        rw [List.length_append] at below
        rcases ih opened' (by omega) with held | ⟨passing, decoded, consumed, decodes, applied⟩
        · have unapplied : rewriteApplied (env.afterReads reads).1 = false := by
            have reached := (env.reached_afterReads reads).1
            rw [held] at reached
            exact reached.2.2.2
          have room : ¬ env.rewritePlan.maxBodyBytes ≤ (after' ++ chunk).length := by
            rw [List.length_append]
            omega
          rw [afterReads_snoc, held, phaseStep, growBody, framing]
          simp only [if_neg room]
          cases decodes : tryDecodeChunkedMessage (after' ++ chunk) with
          | none => exact .inl rfl
          | some message =>
              obtain ⟨decoded, consumed⟩ := message
              refine .inr ⟨rfl, decoded, consumed, rfl, ?_⟩
              simp [sendBody, unapplied, rewriteApplied_finishChunked]
        · refine .inr ⟨?_, decoded, consumed, tryDecode_append decodes chunk, ?_⟩
          · rw [afterReads_snoc, passing, phaseStep]
          · rw [afterReads_snoc, passing, phaseStep]
            simpa [Effect.isAppliedRewrite] using applied
      · exact .inl (holds_of_opened found opened holds)

/-- The end of the stream replaces what is held when its rewriting succeeds. -/
theorem rewriteApplied_eof (headers body : Bytes) :
    rewriteApplied (env.phaseStep (.holdingBody headers body) .eof).1 =
      ((heldBody headers body).bind (env.rewriting headers)).isSome := by
  rw [phaseStep, flushHeld, heldBody]
  cases framingOf headers with
  | chunked =>
      cases tryDecodeChunkedMessage body with
      | none => simp [Effect.isAppliedRewrite]
      | some message => simp [Effect.isAppliedRewrite]
  | length expected => simp [Effect.isAppliedRewrite]
  | untilClose => simp [Effect.isAppliedRewrite]

/-- A truncated body that can be replaced is replaced by the end of the stream. -/
theorem applied_of_replaces (opened : env.Opened reads headers after)
    (replaces : env.Replaces headers after) {expected : Nat}
    (announced : extractContentLength headers = some expected) (short : after.length < expected) :
    rewriteApplied
      ((env.afterReads reads).1 ++ (env.phaseStep (env.afterReads reads).2 .eof).1) = true := by
  obtain ⟨holds, rewrites⟩ := replaces
  rw [rewriteApplied_append]
  cases is_chunked : hasTransferEncodingChunked headers with
  | false =>
      rw [holds_of_short opened holds (framingOf_length is_chunked announced) short,
        rewriteApplied_eof, rewrites, Bool.or_true]
  | true =>
      have framing := framingOf_chunked is_chunked
      have below := short.trans_le (holds.2 expected announced)
      rcases chunked_of_short opened holds framing below with
        held | ⟨-, decoded, consumed, decodes, applied⟩
      · rw [held, rewriteApplied_eof, rewrites, Bool.or_true]
      · have rewritten : (env.rewriting headers decoded).isSome = true := by
          simpa [heldBody, framing, decodes] using rewrites
        rw [applied, rewritten, Bool.true_or]

variable {events : List RelayEvent} {outputs : List Effect}
  {status : Status RelayState RelayVerdict}

/-- The client is shown a truncated response as a truncated one exactly when the policy's header
block keeps it so and the relay does not replace the incomplete body. -/
theorem truncation_stays_visible_iff (execution : env.relay.Run {} events outputs status)
    (ended : .upstreamEof ∈ events) (cut : truncated (upstreamReads events).flatten = true) :
    ∃ shown, clientBytes outputs = shown ++ blockedReply outputs ∧
      (truncated shown = true ↔ env.KeepsTruncation (upstreamReads events)) := by
  obtain ⟨reached, opened⟩ := env.reached_afterReads (upstreamReads events)
  obtain ⟨client, -⟩ := clientBytes_of_run execution
  rw [afterEvents_of_ended execution ended] at client
  have outcome := reached.eof opened
  refine ⟨_, client, fun visible headers after opened => ?_, outcome.keeps_truncation cut⟩
  rcases outcome.shows_of_cut cut opened with ⟨same, unapplied⟩ | complete
  · rw [same] at visible
    refine ⟨visible, fun replaces => ?_⟩
    obtain ⟨expected, announced, short⟩ := opened.short_of_replaces cut visible replaces
    rw [applied_of_replaces opened replaces announced short] at unapplied
    cases unapplied
  · rw [visible] at complete
    cases complete

/-- A page that ends eight bytes early. -/
def cutPageEvents : List RelayEvent :=
  [.upstreamRead
    ⟨ascii "HTTP/1.1 200 OK\r\nContent-Type: text/html\r\nContent-Length: 10\r\n\r\nok",
    by decide, by decide⟩, .upstreamEof]

/-- The rewritten part of the page is sent as a complete page of two bytes. -/
theorem cut_page_looks_complete :
    truncated (upstreamReads cutPageEvents).flatten = true ∧
      ∃ outputs status, (pageTunnel .enforce).relay.Run {} cutPageEvents outputs status ∧
        websocketBlocked outputs = false ∧
        clientBytes outputs =
          ascii "HTTP/1.1 200 OK\r\nContent-Type: text/html\r\nContent-Length: 2\r\n\r\nok" ∧
        truncated (clientBytes outputs) = false := by
  have executes : ((pageTunnel .enforce).relay.run {} cutPageEvents).map (fun reaction =>
      (websocketBlocked reaction.outputs, clientBytes reaction.outputs)) =
      some (false,
        ascii "HTTP/1.1 200 OK\r\nContent-Type: text/html\r\nContent-Length: 2\r\n\r\nok") := by
    decide +kernel
  obtain ⟨outputs, status, execution, observed⟩ := Machine.exists_run _ _ _ _ executes
  obtain ⟨unblocked, client⟩ := Prod.mk.inj observed
  refine ⟨by decide +kernel, outputs, status, execution, unblocked, client, ?_⟩
  rw [show clientBytes outputs = _ from client]
  decide +kernel

theorem cut_page_stays_visible_in_report_only :
    ∃ outputs status shown, (pageTunnel .reportOnly).relay.Run {} cutPageEvents outputs status ∧
      clientBytes outputs = shown ++ blockedReply outputs ∧ truncated shown = true := by
  have executes : ((pageTunnel .reportOnly).relay.run {} cutPageEvents).map (fun _ => ()) =
      some () := by
    decide +kernel
  obtain ⟨outputs, status, execution, -⟩ := Machine.exists_run _ _ _ _ executes
  obtain ⟨shown, client, visible⟩ :=
    truncation_stays_visible_iff execution (by decide) (by decide +kernel)
  refine ⟨outputs, status, shown, execution, client, visible.mpr ?_⟩
  rintro headers after ⟨-, headerEnd, occurs, rfl, rfl⟩
  have at_end : findHeadersEnd (upstreamReads cutPageEvents).flatten = some 64 := by
    decide +kernel
  obtain rfl := Option.some.inj (occurs.symm.trans at_end)
  refine ⟨by decide +kernel, fun replaces => ?_⟩
  obtain ⟨body, -, applies⟩ := Option.bind_eq_some_iff.mp
    (Option.isSome_iff_exists.mp replaces.2).choose_spec
  rw [rewriting, @attempt_reportOnly (pageTunnel .reportOnly) body
    (pageTunnel .reportOnly).rewritePlan rfl] at applies
  cases applies

end RelayEnv

end PrivacyEngine
