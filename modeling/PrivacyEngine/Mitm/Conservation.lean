import PrivacyEngine.Mitm.RelayRun

/-!
# Conservation of the upstream stream

What a client has been sent at any point is an image of the bytes received from upstream, except
for what the relay still holds.  An image is the stream itself, the stream with its header block
replaced by the policy's, or the latter with the first body replaced by its rewriting under a new
length.  The invariant is kept by every read; without an applied rewriting it says that no byte
behind the header block is lost, repeated or reordered.
-/

namespace PrivacyEngine

open Wire Reactive

/-- The header terminator is received before the reads exceed the header limit. -/
def HeadersFound (reads : List Bytes) : Prop :=
  ∃ seen, seen <+: reads ∧ seen.flatten.length ≤ maxHttp1HeaderBytes ∧
    (findHeadersEnd seen.flatten).isSome = true

theorem HeadersFound.snoc {reads : List Bytes} (found : HeadersFound reads) (chunk : Bytes) :
    HeadersFound (reads ++ [chunk]) := by
  obtain ⟨seen, seen_le, rest⟩ := found
  exact ⟨seen, seen_le.trans (List.prefix_append _ _), rest⟩

/-- A read that neither completes the headers nor stays below the limit finds no headers. -/
theorem not_headersFound_snoc {reads : List Bytes} {chunk : Bytes} (unfound : ¬ HeadersFound reads)
    (missing : (reads.flatten ++ chunk).length ≤ maxHttp1HeaderBytes →
      findHeadersEnd (reads.flatten ++ chunk) = none) : ¬ HeadersFound (reads ++ [chunk]) := by
  rintro ⟨seen, seen_le, short, occurs⟩
  rcases List.prefix_concat_iff.mp seen_le with rfl | earlier
  · have whole : (reads ++ [chunk]).flatten = reads.flatten ++ chunk := by simp
    rw [whole] at short occurs
    rw [missing short] at occurs
    cases occurs
  · exact unfound ⟨seen, earlier, short, occurs⟩

theorem findHeadersEnd_append {stream : Bytes} {headerEnd : Nat}
    (found : findHeadersEnd stream = some headerEnd) (tail : Bytes) :
    findHeadersEnd (stream ++ tail) = some headerEnd := by
  obtain ⟨i, occurs, rfl⟩ := Option.map_eq_some_iff.mp found
  exact Option.map_eq_some_iff.mpr ⟨i, findSub_append crlfcrlf_ne_nil occurs tail, rfl⟩

namespace RelayEnv

variable (env : RelayEnv)

/-- The reads contain a header block; the policy's version of it and the bytes behind it. -/
def Opened (reads : List Bytes) (headers after : Bytes) : Prop :=
  HeadersFound reads ∧ ∃ headerEnd, findHeadersEnd reads.flatten = some headerEnd ∧
    headers = env.outputHeaders (reads.flatten.take headerEnd) ∧
    after = reads.flatten.drop headerEnd

/-- Whether a body behind these headers is held back to be rewritten. -/
def Holds (headers : Bytes) : Prop :=
  env.canRewrite headers = true ∧
    ∀ expected, extractContentLength headers = some expected →
      expected ≤ env.rewritePlan.maxBodyBytes

/-- The replacement of a body behind the given headers. -/
def rewriting (headers body : Bytes) : Option Bytes :=
  (env.attemptBodyRewrite body env.rewritePlan (extractContentEncoding headers)).1

/-- Images of the reads that a client is shown, and whether a body was replaced: each byte is
shown as it was received, or belongs to a message that is shown in the version of the policy or
with its body replaced. -/
inductive Image (closed : Bool) (reads : List Bytes) : Bytes → Bool → Prop
  | verbatim (unfound : ¬ HeadersFound reads)
      (settled : closed = true ∨ maxHttp1HeaderBytes < reads.flatten.length) :
      Image closed reads reads.flatten false
  | filtered {headers after : Bytes} (opened : env.Opened reads headers after) :
      Image closed reads (headers ++ after) false
  | chunked {headers after decoded rewritten : Bytes} {consumed : Nat}
      (opened : env.Opened reads headers after) (holds : env.Holds headers)
      (framing : framingOf headers = .chunked)
      (decodes : tryDecodeChunkedMessage after = some (decoded, consumed))
      (applies : env.rewriting headers decoded = some rewritten) :
      Image closed reads
        (replaceChunkedWithContentLength headers rewritten.length ++ rewritten ++
          after.drop consumed) true
  | complete {headers after rewritten : Bytes} {expected : Nat}
      (opened : env.Opened reads headers after) (holds : env.Holds headers)
      (framing : framingOf headers = .length expected) (fits : expected ≤ after.length)
      (applies : env.rewriting headers (after.take expected) = some rewritten) :
      Image closed reads
        (replaceContentLength headers rewritten.length ++ rewritten ++ after.drop expected) true
  | cutShort {headers after rewritten : Bytes} {expected : Nat}
      (opened : env.Opened reads headers after) (ended : closed = true) (holds : env.Holds headers)
      (framing : framingOf headers = .length expected) (short : after.length < expected)
      (applies : env.rewriting headers after = some rewritten) :
      Image closed reads (replaceContentLength headers rewritten.length ++ rewritten) true
  | untilClose {headers after rewritten : Bytes} (opened : env.Opened reads headers after)
      (ended : closed = true) (holds : env.Holds headers)
      (framing : framingOf headers = .untilClose)
      (applies : env.rewriting headers after = some rewritten) :
      Image closed reads (replaceContentLength headers rewritten.length ++ rewritten) true

/-- What a client is shown by the end of the stream: an image of the reads, or a body that was
replaced together with the bytes behind its announced length. -/
inductive Outcome (reads : List Bytes) : Bytes → Bool → Prop
  | image {image : Bytes} {applied : Bool} (shown : env.Image true reads image applied) :
      Outcome reads image applied
  | overrun {headers after rewritten : Bytes} {expected : Nat}
      (opened : env.Opened reads headers after) (holds : env.Holds headers)
      (framing : framingOf headers = .length expected) (exceeds : expected < after.length)
      (applies : env.rewriting headers after = some rewritten) :
      Outcome reads (replaceContentLength headers rewritten.length ++ rewritten) true

/-- More bytes are held than the held response announces, and the end of the stream would replace
them all. -/
def RunsOver (s : RelayState) : Prop :=
  s.bufferingBody = true ∧ ∃ expected, s.expectedBodyLen = some expected ∧
    expected < s.bodyBuffer.length ∧
    (env.rewriting (s.deferredHeaders.getD []) s.bodyBuffer).isSome = true

/-- The end of the upstream stream does not find a held response that runs over. -/
def FitsAtEof (events : List RelayEvent) : Prop :=
  ∀ front rest earlier t, events = front ++ .upstreamEof :: rest →
    env.relay.Run {} front earlier (.running t) → ¬ env.RunsOver t

/-- The phase and the effects the reads have led to. -/
def Reached (reads : List Bytes) (effects : List Effect) : ResponsePhase → Prop
  | .awaitingHeaders pending =>
      pending = reads.flatten ∧ ¬ HeadersFound reads ∧ clientBytes effects = [] ∧
        rewriteApplied effects = false
  | .holdingBody headers body =>
      env.Opened reads headers body ∧ env.Holds headers ∧ clientBytes effects = [] ∧
        rewriteApplied effects = false
  | .passingThrough => env.Image false reads (clientBytes effects) (rewriteApplied effects)
  | .ended => env.Outcome reads (clientBytes effects) (rewriteApplied effects)

variable {env} {reads : List Bytes} {headers after : Bytes}

theorem Opened.snoc (opened : env.Opened reads headers after) (chunk : Bytes) :
    env.Opened (reads ++ [chunk]) headers (after ++ chunk) := by
  obtain ⟨found, headerEnd, occurs, rfl, rfl⟩ := opened
  have in_range := findHeadersEnd_le occurs
  have whole : (reads ++ [chunk]).flatten = reads.flatten ++ chunk := by simp
  refine ⟨found.snoc chunk, headerEnd, ?_, ?_, ?_⟩
  · rw [whole]
    exact findHeadersEnd_append occurs chunk
  · rw [whole, List.take_append_of_le_length in_range]
  · rw [whole, List.drop_append_of_le_length in_range]

theorem exists_headersEnd (found : HeadersFound reads) :
    ∃ headerEnd, findHeadersEnd reads.flatten = some headerEnd := by
  obtain ⟨seen, ⟨rest, rfl⟩, -, occurs⟩ := found
  obtain ⟨headerEnd, occurs⟩ := Option.isSome_iff_exists.mp occurs
  exact ⟨headerEnd, by rw [List.flatten_append]; exact findHeadersEnd_append occurs _⟩

/-- Bytes passed through extend an image. -/
theorem Image.snoc {image : Bytes} {applied : Bool} (shown : env.Image false reads image applied)
    (chunk : Bytes) : env.Image false (reads ++ [chunk]) (image ++ chunk) applied := by
  have whole : (reads ++ [chunk]).flatten = reads.flatten ++ chunk := by simp
  cases shown with
  | verbatim unfound settled =>
      have exceeds : maxHttp1HeaderBytes < (reads.flatten ++ chunk).length := by
        have long := settled.resolve_left Bool.false_ne_true
        rw [List.length_append]
        omega
      rw [← whole]
      exact .verbatim (not_headersFound_snoc unfound fun short => absurd short (not_le.mpr exceeds))
        (.inr (whole ▸ exceeds))
  | filtered opened =>
      rw [List.append_assoc]
      exact .filtered (opened.snoc chunk)
  | chunked opened holds framing decodes applies =>
      rw [List.append_assoc, ← List.drop_append_of_le_length (tryDecode_consumed_le decodes)]
      exact .chunked (opened.snoc chunk) holds framing (tryDecode_append decodes chunk) applies
  | complete opened holds framing fits applies =>
      rw [List.append_assoc, ← List.drop_append_of_le_length fits]
      refine .complete (opened.snoc chunk) holds framing ?_ ?_
      · rw [List.length_append]
        omega
      · rwa [List.take_append_of_le_length fits]
  | cutShort opened ended => cases ended
  | untilClose opened ended => cases ended

/-- The image of an open stream is the image when the stream ends there. -/
theorem Image.close {image : Bytes} {applied : Bool} (shown : env.Image false reads image applied) :
    env.Image true reads image applied := by
  cases shown with
  | verbatim unfound settled => exact .verbatim unfound (.inl rfl)
  | filtered opened => exact .filtered opened
  | chunked opened holds framing decodes applies =>
      exact .chunked opened holds framing decodes applies
  | complete opened holds framing fits applies => exact .complete opened holds framing fits applies
  | cutShort opened ended => cases ended
  | untilClose opened ended => cases ended

/-- What a client can be shown: the stream itself, the policy's headers and what followed them, or a
replaced body under a block that announces it. -/
theorem Outcome.shows {shown : Bytes} {applied : Bool} (outcome : env.Outcome reads shown applied) :
    ¬ HeadersFound reads ∧ shown = reads.flatten ∧ applied = false ∨
      ∃ headers after, env.Opened reads headers after ∧
        (shown = headers ++ after ∧ applied = false ∨
          applied = true ∧ ∃ body rewritten rest framed,
            env.rewriting headers body = some rewritten ∧
            (framed = replaceContentLength headers rewritten.length ∨
              framed = replaceChunkedWithContentLength headers rewritten.length) ∧
            shown = framed ++ (rewritten ++ rest)) := by
  cases outcome with
  | overrun opened holds framing exceeds applies =>
      exact .inr ⟨_, _, opened, .inr ⟨rfl, _, _, [], _, applies, .inl rfl, by simp⟩⟩
  | image shown =>
      cases shown with
      | verbatim unfound settled => exact .inl ⟨unfound, rfl, rfl⟩
      | filtered opened => exact .inr ⟨_, _, opened, .inl ⟨rfl, rfl⟩⟩
      | chunked opened holds framing decodes applies =>
          exact .inr ⟨_, _, opened,
            .inr ⟨rfl, _, _, _, _, applies, .inr rfl, List.append_assoc _ _ _⟩⟩
      | complete opened holds framing fits applies =>
          exact .inr ⟨_, _, opened,
            .inr ⟨rfl, _, _, _, _, applies, .inl rfl, List.append_assoc _ _ _⟩⟩
      | cutShort opened ended holds framing short applies =>
          exact .inr ⟨_, _, opened, .inr ⟨rfl, _, _, [], _, applies, .inl rfl, by simp⟩⟩
      | untilClose opened ended holds framing applies =>
          exact .inr ⟨_, _, opened, .inr ⟨rfl, _, _, [], _, applies, .inl rfl, by simp⟩⟩

/-- Where nothing is replaced beyond its announced length, the client is shown an image. -/
theorem Outcome.image_of_fits {shown : Bytes} {applied : Bool}
    (outcome : env.Outcome reads shown applied)
    (fits : ∀ headers after expected, env.Opened reads headers after →
      framingOf headers = .length expected → expected < after.length →
        env.rewriting headers after = none) : env.Image true reads shown applied := by
  cases outcome with
  | image shown => exact shown
  | overrun opened holds framing exceeds applies =>
      rw [fits _ _ _ opened framing exceeds] at applies
      cases applies

/-- Without a header block the image is the stream itself. -/
theorem Image.of_unfound {closed applied : Bool} {image : Bytes}
    (shown : env.Image closed reads image applied) (unfound : ¬ HeadersFound reads) :
    image = reads.flatten ∧ applied = false ∧
      (closed = true ∨ maxHttp1HeaderBytes < reads.flatten.length) := by
  cases shown with
  | verbatim _ settled => exact ⟨rfl, rfl, settled⟩
  | filtered opened => exact absurd opened.1 unfound
  | chunked opened => exact absurd opened.1 unfound
  | complete opened => exact absurd opened.1 unfound
  | cutShort opened => exact absurd opened.1 unfound
  | untilClose opened => exact absurd opened.1 unfound

theorem Outcome.of_unfound {shown : Bytes} {applied : Bool}
    (outcome : env.Outcome reads shown applied)
    (unfound : ¬ HeadersFound reads) : shown = reads.flatten := by
  rcases outcome.shows with ⟨-, same, -⟩ | ⟨headers, after, opened, -⟩
  · exact same
  · exact absurd opened.1 unfound

theorem Opened.unique {headers' after' : Bytes} (opened : env.Opened reads headers after)
    (opened' : env.Opened reads headers' after') : headers' = headers ∧ after' = after := by
  obtain ⟨-, headerEnd, occurs, rfl, rfl⟩ := opened
  obtain ⟨-, headerEnd', occurs', rfl, rfl⟩ := opened'
  obtain rfl := Option.some.inj (occurs.symm.trans occurs')
  exact ⟨rfl, rfl⟩

theorem Opened.of_snoc {chunk : Bytes} (opened : env.Opened (reads ++ [chunk]) headers after)
    (found : HeadersFound reads) :
    ∃ after', env.Opened reads headers after' ∧ after = after' ++ chunk := by
  obtain ⟨headerEnd, occurs⟩ := exists_headersEnd found
  have before : env.Opened reads _ _ := ⟨found, headerEnd, occurs, rfl, rfl⟩
  obtain ⟨rfl, rfl⟩ := (before.snoc chunk).unique opened
  exact ⟨_, before, rfl⟩

/-! ## One upstream input -/

@[simp] theorem clientBytes_finishChunked (headers body decoded overflow : Bytes)
    (plan : BodyRewritePlan) (encoding : Option Str) :
    clientBytes (env.finishChunked headers plan encoding body decoded overflow).1 = [] :=
  env.clientBytes_attempt decoded plan encoding

@[simp] theorem clientBytes_finishPlain (headers body overflow : Bytes) (plan : BodyRewritePlan)
    (encoding : Option Str) :
    clientBytes (env.finishPlain headers plan encoding body overflow).1 = [] :=
  env.clientBytes_attempt body plan encoding

@[simp] theorem rewriteApplied_finishChunked (headers body decoded overflow : Bytes) :
    rewriteApplied (env.finishChunked headers env.rewritePlan (extractContentEncoding headers) body
      decoded overflow).1 = (env.rewriting headers decoded).isSome :=
  env.rewriteApplied_attempt decoded env.rewritePlan _

@[simp] theorem rewriteApplied_finishPlain (headers body overflow : Bytes) :
    rewriteApplied (env.finishPlain headers env.rewritePlan (extractContentEncoding headers) body
      overflow).1 = (env.rewriting headers body).isSome :=
  env.rewriteApplied_attempt body env.rewritePlan _

theorem finishChunked_image {decoded : Bytes} {consumed : Nat} (closed : Bool)
    (opened : env.Opened reads headers after) (holds : env.Holds headers)
    (framing : framingOf headers = .chunked)
    (decodes : tryDecodeChunkedMessage after = some (decoded, consumed)) :
    let sent := env.finishChunked headers env.rewritePlan (extractContentEncoding headers) after
      decoded (after.drop consumed)
    env.Image closed reads sent.2.flatten (rewriteApplied sent.1) := by
  cases applies : env.rewriting headers decoded with
  | none =>
      rw [rewriting] at applies
      simpa [finishChunked, applies] using Image.filtered opened
  | some rewritten =>
      have image : env.Image closed reads _ _ := .chunked opened holds framing decodes applies
      rw [rewriting] at applies
      simpa [finishChunked, applies] using image

theorem finishPlain_image {expected : Nat} (closed : Bool)
    (opened : env.Opened reads headers after) (holds : env.Holds headers)
    (framing : framingOf headers = .length expected) (fits : expected ≤ after.length) :
    let sent := env.finishPlain headers env.rewritePlan (extractContentEncoding headers)
      (after.take expected) (after.drop expected)
    env.Image closed reads sent.2.flatten (rewriteApplied sent.1) := by
  cases applies : env.rewriting headers (after.take expected) with
  | none =>
      rw [rewriting] at applies
      simpa [finishPlain, applies] using Image.filtered opened
  | some rewritten =>
      have image : env.Image closed reads _ _ := .complete opened holds framing fits applies
      rw [rewriting] at applies
      simpa [finishPlain, applies] using image

theorem finishClosed_outcome (opened : env.Opened reads headers after) (holds : env.Holds headers)
    (framing : framingOf headers ≠ .chunked) :
    let sent := env.finishPlain headers env.rewritePlan (extractContentEncoding headers) after []
    env.Outcome reads sent.2.flatten (rewriteApplied sent.1) := by
  cases applies : env.rewriting headers after with
  | none =>
      rw [rewriting] at applies
      simpa [finishPlain, applies] using Outcome.image (Image.filtered opened)
  | some rewritten =>
      have outcome : env.Outcome reads
          (replaceContentLength headers rewritten.length ++ rewritten) true := by
        cases announced : framingOf headers with
        | chunked => exact absurd announced framing
        | untilClose => exact .image (.untilClose opened rfl holds announced applies)
        | length expected =>
            rcases Nat.lt_trichotomy after.length expected with short | rfl | exceeds
            · exact .image (.cutShort opened rfl holds announced short applies)
            · have whole : env.rewriting headers (after.take after.length) = some rewritten := by
                rwa [List.take_length]
              have image : env.Image true reads _ _ :=
                .complete opened holds announced le_rfl whole
              rw [List.drop_length, List.append_nil] at image
              exact .image image
            · exact .overrun opened holds announced exceeds applies
      rw [rewriting] at applies
      simpa [finishPlain, applies] using outcome

variable {effects : List Effect} {phase : ResponsePhase}

theorem Reached.growBody {body : Bytes} (opened : env.Opened reads headers body)
    (holds : env.Holds headers) (silent : clientBytes effects = [])
    (unapplied : rewriteApplied effects = false) :
    env.Reached reads (effects ++ (env.growBody headers body).1) (env.growBody headers body).2 := by
  have held : env.Reached reads (effects ++ []) (.holdingBody headers body) := by
    simpa [Reached] using ⟨opened, holds, silent, unapplied⟩
  have image : env.Image false reads _ _ := .filtered opened
  have skipped : env.Reached reads (effects ++ (env.skipBody headers body).1)
      (env.skipBody headers body).2 := by
    simpa [Reached, skipBody, silent, unapplied, Effect.toClient,
      Effect.isAppliedRewrite] using image
  unfold RelayEnv.growBody
  dsimp only
  split
  · rename_i framing
    split
    · exact skipped
    · split
      · rename_i decodes
        simpa [Reached, sendBody, silent, unapplied] using
          finishChunked_image false opened holds framing decodes
      · exact held
  · rename_i framing
    split
    · rename_i fits
      simpa [Reached, sendBody, silent, unapplied] using
        finishPlain_image false opened holds framing fits
    · split
      · exact skipped
      · exact held
  · split
    · exact skipped
    · exact held

theorem Reached.openResponse {headerEnd : Nat} (found : HeadersFound reads)
    (occurs : findHeadersEnd reads.flatten = some headerEnd) (silent : clientBytes effects = [])
    (unapplied : rewriteApplied effects = false) :
    env.Reached reads
      (effects ++
        (env.openResponse (reads.flatten.take headerEnd) (reads.flatten.drop headerEnd)).1)
      (env.openResponse (reads.flatten.take headerEnd) (reads.flatten.drop headerEnd)).2 := by
  have opened : env.Opened reads _ _ := ⟨found, headerEnd, occurs, rfl, rfl⟩
  have image : env.Image false reads _ _ := .filtered opened
  have quiet := env.bookkeeping_headerEffects (reads.flatten.take headerEnd)
  have quiet_bytes := clientBytes_of_bookkeeping quiet
  have quiet_rewrites := rewriteApplied_of_bookkeeping quiet
  unfold RelayEnv.openResponse
  dsimp only
  split
  · rename_i rewritable
    split
    · simpa [Reached, silent, unapplied, quiet_bytes, quiet_rewrites, Effect.toClient,
        Effect.isAppliedRewrite] using image
    · rename_i fits
      refine ⟨opened, ⟨rewritable, ?_⟩, by simp [silent, quiet_bytes],
        by simp [unapplied, quiet_rewrites]⟩
      intro expected announced
      simpa [announced] using fits
  · simpa [Reached, silent, unapplied, quiet_bytes, quiet_rewrites, Effect.toClient,
      Effect.isAppliedRewrite] using image

/-- One read keeps the invariant. -/
theorem Reached.read (reached : env.Reached reads effects phase) (opened : phase ≠ .ended)
    (chunk : Bytes) :
    env.Reached (reads ++ [chunk]) (effects ++ (env.phaseStep phase (.read chunk)).1)
      (env.phaseStep phase (.read chunk)).2 := by
  have whole : (reads ++ [chunk]).flatten = reads.flatten ++ chunk := by simp
  cases phase with
  | awaitingHeaders pending =>
      obtain ⟨rfl, unfound, silent, unapplied⟩ := reached
      rw [phaseStep]
      split
      · rename_i exceeds
        have unfound' := not_headersFound_snoc unfound fun short =>
          absurd short (not_le.mpr exceeds)
        have image : env.Image false (reads ++ [chunk]) _ _ :=
          .verbatim unfound' (.inr (whole ▸ exceeds))
        simpa [Reached, silent, unapplied, Effect.toClient, Effect.isAppliedRewrite] using image
      · rename_i short
        split
        · rename_i missing
          have unfound' := not_headersFound_snoc unfound fun _ => missing
          exact ⟨whole.symm, unfound', by simpa using silent, by simpa using unapplied⟩
        · rename_i headerEnd occurs
          rw [← whole] at occurs short ⊢
          have found : HeadersFound (reads ++ [chunk]) :=
            ⟨_, List.prefix_refl _, not_lt.mp short, by rw [occurs]; rfl⟩
          exact .openResponse found occurs silent unapplied
  | holdingBody headers body =>
      obtain ⟨opened, holds, silent, unapplied⟩ := reached
      exact .growBody (opened.snoc chunk) holds silent unapplied
  | passingThrough =>
      simpa [Reached, phaseStep, Effect.toClient, Effect.isAppliedRewrite] using
        Image.snoc reached chunk
  | ended => exact absurd rfl opened

/-- The end of the stream keeps the invariant. -/
theorem Reached.eof (reached : env.Reached reads effects phase) (opened : phase ≠ .ended) :
    env.Outcome reads (clientBytes (effects ++ (env.phaseStep phase .eof).1))
      (rewriteApplied (effects ++ (env.phaseStep phase .eof).1)) := by
  cases phase with
  | awaitingHeaders pending =>
      obtain ⟨rfl, unfound, silent, unapplied⟩ := reached
      have image : env.Outcome reads _ _ := .image (.verbatim unfound (.inl rfl))
      simpa [phaseStep, silent, unapplied, Effect.toClient, Effect.isAppliedRewrite] using image
  | holdingBody headers body =>
      obtain ⟨opened, holds, silent, unapplied⟩ := reached
      have image : env.Outcome reads _ _ := .image (.filtered opened)
      rw [phaseStep]
      unfold flushHeld
      dsimp only
      split
      · rename_i framing
        split
        · rename_i decodes
          simpa [silent, unapplied, Effect.toClient, Effect.isAppliedRewrite] using
            Outcome.image (finishChunked_image true opened holds framing decodes)
        · simpa [silent, unapplied, Effect.toClient, Effect.isAppliedRewrite] using image
      · rename_i framing
        simpa [silent, unapplied, Effect.toClient, Effect.isAppliedRewrite] using
          finishClosed_outcome opened holds (by simp [framing])
      · rename_i framing
        simpa [silent, unapplied, Effect.toClient, Effect.isAppliedRewrite] using
          finishClosed_outcome opened holds (by simp [framing])
  | passingThrough =>
      simpa [phaseStep, Effect.toClient, Effect.isAppliedRewrite] using
        Outcome.image (Image.close reached)
  | ended => exact absurd rfl opened

variable (env) in
/-- The end of the stream replaces a held body together with bytes behind its announced length. -/
def Overruns : ResponsePhase → Prop
  | .holdingBody headers body => ∃ expected, framingOf headers = .length expected ∧
      expected < body.length ∧ (env.rewriting headers body).isSome = true
  | _ => False

theorem Represents.runsOver_iff {s : RelayState} (represents : env.Represents s phase) :
    env.RunsOver s ↔ env.Overruns phase := by
  unfold RunsOver Overruns
  cases phase with
  | holdingBody headers body =>
      obtain ⟨-, -, holding, -, rfl, -, deferred, -, expected, -⟩ := represents
      rw [holding, deferred, expected, Option.getD_some, eq_self_iff_true, true_and]
      refine exists_congr fun length => and_congr_left fun _ => ?_
      cases is_chunked : hasTransferEncodingChunked headers with
      | true => simp [framingOf_chunked is_chunked]
      | false =>
          cases announced : extractContentLength headers with
          | none => simp [framingOf_untilClose is_chunked announced]
          | some n => simp [framingOf_length is_chunked announced]
  | awaitingHeaders pending => simp [represents.2.2.1]
  | passingThrough => simp [represents.2.2.1]
  | ended => simp [represents.2.1]

/-- Without an overrun the end of the stream leaves an image behind. -/
theorem Reached.eof_image (reached : env.Reached reads effects phase) (opened : phase ≠ .ended)
    (fits : ¬ env.Overruns phase) :
    env.Image true reads (clientBytes (effects ++ (env.phaseStep phase .eof).1))
      (rewriteApplied (effects ++ (env.phaseStep phase .eof).1)) := by
  have outcome := reached.eof opened
  cases phase with
  | awaitingHeaders pending =>
      exact outcome.image_of_fits fun headers after expected opened _ _ =>
        absurd opened.1 reached.2.1
  | holdingBody headers body =>
      refine outcome.image_of_fits fun headers' after expected opened' framing exceeds => ?_
      obtain ⟨rfl, rfl⟩ := reached.1.unique opened'
      by_contra applies
      exact fits ⟨expected, framing, exceeds, Option.isSome_iff_ne_none.mpr applies⟩
  | passingThrough =>
      simpa [phaseStep, Effect.toClient, Effect.isAppliedRewrite] using Image.close reached
  | ended => exact absurd rfl opened

/-- A held body that is not chunked is replaced as a whole when the stream ends. -/
theorem clientBytes_eof_of_rewriting {body rewritten : Bytes}
    (framing : framingOf headers ≠ .chunked)
    (applies : env.rewriting headers body = some rewritten) :
    clientBytes (env.phaseStep (.holdingBody headers body) .eof).1 =
      replaceContentLength headers rewritten.length ++ rewritten := by
  rw [rewriting] at applies
  rw [phaseStep, flushHeld]
  cases announced : framingOf headers with
  | chunked => exact absurd announced framing
  | length expected => simp [finishPlain, applies, Effect.toClient]
  | untilClose => simp [finishPlain, applies, Effect.toClient]

/-! ## Whole runs -/

variable (env) in
/-- Where the reads of an open stream lead. -/
abbrev afterReads (reads : List Bytes) : List Effect × ResponsePhase :=
  env.phaseRun (.awaitingHeaders []) (reads.map .read)

theorem afterReads_snoc (reads : List Bytes) (chunk : Bytes) :
    env.afterReads (reads ++ [chunk]) =
      ((env.afterReads reads).1 ++ (env.phaseStep (env.afterReads reads).2 (.read chunk)).1,
        (env.phaseStep (env.afterReads reads).2 (.read chunk)).2) := by
  simp [afterReads, phaseRun_append, phaseRun]

/-- Every sequence of reads keeps the invariant and leaves the stream open. -/
theorem reached_afterReads (reads : List Bytes) :
    env.Reached reads (env.afterReads reads).1 (env.afterReads reads).2 ∧
      (env.afterReads reads).2 ≠ .ended := by
  induction reads using List.reverseRecOn with
  | nil =>
      refine ⟨⟨rfl, ?_, rfl, rfl⟩, nofun⟩
      rintro ⟨seen, seen_le, -, occurs⟩
      obtain rfl := List.prefix_nil.mp seen_le
      cases occurs
  | append_singleton reads chunk ih =>
      obtain ⟨reached, opened⟩ := ih
      rw [afterReads_snoc]
      exact ⟨reached.read opened chunk, env.phaseStep_read_ne_ended opened chunk⟩

/-- A read that completes the header block of a body to be held leaves the relay holding it. -/
theorem holds_of_opened {chunk : Bytes} (unfound : ¬ HeadersFound reads)
    (opened : env.Opened (reads ++ [chunk]) headers after) (holds : env.Holds headers) :
    (env.afterReads (reads ++ [chunk])).2 = .holdingBody headers after := by
  have whole : (reads ++ [chunk]).flatten = reads.flatten ++ chunk := by simp
  obtain ⟨found, headerEnd, occurs, rfl, rfl⟩ := opened
  have short : (reads.flatten ++ chunk).length ≤ maxHttp1HeaderBytes := by
    by_contra exceeds
    exact not_headersFound_snoc unfound (fun short => absurd short exceeds) found
  obtain ⟨reached, opened⟩ := env.reached_afterReads reads
  rw [afterReads_snoc]
  cases phase : (env.afterReads reads).2 with
  | awaitingHeaders pending =>
      rw [phase] at reached
      obtain ⟨rfl, -⟩ := reached
      rw [whole] at occurs holds ⊢
      have fits : ¬ (extractContentLength
          (env.outputHeaders ((reads.flatten ++ chunk).take headerEnd))).any
            (env.rewritePlan.maxBodyBytes < ·) = true := by
        cases announced : extractContentLength
            (env.outputHeaders ((reads.flatten ++ chunk).take headerEnd)) with
        | none => simp
        | some expected => simpa using holds.2 expected announced
      simp only [phaseStep, if_neg (not_lt.mpr short), occurs, openResponse, holds.1, if_true,
        if_neg fits]
  | holdingBody headers body =>
      rw [phase] at reached
      exact absurd reached.1.1 unfound
  | passingThrough =>
      rw [phase] at reached
      have long := (Image.of_unfound reached unfound).2.2.resolve_left Bool.false_ne_true
      rw [List.length_append] at short
      omega
  | ended => exact absurd phase opened

/-- A body with a Content-Length is held as long as it is incomplete. -/
theorem holds_of_short {expected : Nat} (opened : env.Opened reads headers after)
    (holds : env.Holds headers) (framing : framingOf headers = .length expected)
    (short : after.length < expected) :
    (env.afterReads reads).2 = .holdingBody headers after := by
  induction reads using List.reverseRecOn generalizing after with
  | nil =>
      obtain ⟨-, headerEnd, occurs, -⟩ := opened
      cases occurs
  | append_singleton reads chunk ih =>
      by_cases found : HeadersFound reads
      · obtain ⟨after', opened', rfl⟩ := opened.of_snoc found
        rw [List.length_append] at short
        have before := ih opened' (by omega)
        have bounded := holds.2 expected (framingOf_eq_length framing).2
        rw [afterReads_snoc, before, phaseStep, growBody, framing]
        have incomplete : ¬ expected ≤ (after' ++ chunk).length := by
          rw [List.length_append]
          omega
        have below : ¬ env.rewritePlan.maxBodyBytes ≤ (after' ++ chunk).length := by
          rw [List.length_append]
          omega
        simp only [if_neg incomplete, if_neg below]
      · exact holds_of_opened found opened holds

variable {events : List RelayEvent} {outputs : List Effect}
  {status : Status RelayState RelayVerdict}

variable (env) in
/-- Where the upstream inputs of a sequence of events lead. -/
abbrev afterEvents (events : List RelayEvent) : List Effect × ResponsePhase :=
  env.phaseRun (.awaitingHeaders []) (upstreamInputs events)

/-- A run that reached the end of the stream has handled it behind all its reads. -/
theorem afterEvents_of_ended (execution : env.relay.Run {} events outputs status)
    (ended : .upstreamEof ∈ events) :
    env.afterEvents events =
      ((env.afterReads (upstreamReads events)).1 ++
        (env.phaseStep (env.afterReads (upstreamReads events)).2 .eof).1, .ended) := by
  have inputs := (upstreamInputs_of_run execution env.represents_initial).2
  rw [if_pos ended] at inputs
  have closes : (env.phaseStep (env.afterReads (upstreamReads events)).2 .eof).2 = .ended := by
    cases (env.afterReads (upstreamReads events)).2 <;> rfl
  rw [afterEvents, inputs, phaseRun_append]
  simp [phaseRun, closes]

/-- Every run keeps the invariant, and is behind the end of the stream exactly when it has seen
it. -/
theorem reached_of_run (execution : env.relay.Run {} events outputs status) :
    env.Reached (upstreamReads events) (env.afterEvents events).1 (env.afterEvents events).2 ∧
      ((env.afterEvents events).2 = .ended ↔ .upstreamEof ∈ events) := by
  obtain ⟨reached, opened⟩ := env.reached_afterReads (upstreamReads events)
  by_cases ended : .upstreamEof ∈ events
  · rw [afterEvents_of_ended execution ended]
    exact ⟨reached.eof opened, iff_of_true rfl ended⟩
  · have inputs := (upstreamInputs_of_run execution env.represents_initial).2
    rw [if_neg ended, List.append_nil] at inputs
    rw [afterEvents, inputs]
    exact ⟨reached, iff_of_false opened ended⟩

/-- A state that still reads from upstream is not behind the end of the stream. -/
theorem eof_not_mem_of_open {s : RelayState}
    (execution : env.relay.Run {} events outputs (.running s))
    (opened : s.upstreamClosed = false) : .upstreamEof ∉ events := by
  have represents := ((run_report execution env.represents_initial).running s rfl).1
  rw [← (reached_of_run execution).2, ← represents.closed_iff, opened]
  exact Bool.false_ne_true

/-- The client has been sent what the phases emit, and the relay's own reply. -/
theorem clientBytes_of_run (execution : env.relay.Run {} events outputs status) :
    clientBytes outputs = clientBytes (env.afterEvents events).1 ++ blockedReply outputs ∧
      rewriteApplied outputs = rewriteApplied (env.afterEvents events).1 :=
  have report := run_report execution env.represents_initial
  ⟨report.client, report.rewrites⟩

/-- A run that reached the end of the upstream stream has sent what comes of all upstream reads, and
its own reply behind it. -/
theorem outcome_of_run (execution : env.relay.Run {} events outputs status)
    (ended : .upstreamEof ∈ events) :
    ∃ shown, clientBytes outputs = shown ++ blockedReply outputs ∧
      env.Outcome (upstreamReads events) shown (rewriteApplied outputs) := by
  obtain ⟨reached, closes⟩ := reached_of_run execution
  obtain ⟨client, rewrites⟩ := clientBytes_of_run execution
  rw [closes.mpr ended] at reached
  rw [rewrites]
  exact ⟨_, client, reached⟩

/-- A run that reached the end of the upstream stream did so in the phase that its reads led to. -/
theorem run_until_eof (execution : env.relay.Run {} events outputs status)
    (ended : .upstreamEof ∈ events) :
    ∃ front rest earlier t, events = front ++ .upstreamEof :: rest ∧
      env.relay.Run {} front earlier (.running t) ∧ upstreamReads events = upstreamReads front ∧
      env.Represents t (env.afterReads (upstreamReads events)).2 := by
  obtain ⟨front, rest, rfl⟩ := List.append_of_mem ended
  obtain ⟨earlier, t, later, first, second, -⟩ := execution.cut (List.cons_ne_nil _ _)
  have represents := ((run_report first env.represents_initial).running t rfl).1
  have polled : env.relay.polls t .upstreamEof = true := by
    cases second <;> assumption
  have opened := represents.opened polled
  have silent : upstreamReads rest = [] := by
    cases second with
    | halt => rfl
    | step _ reacts later =>
        have report := react_report represents polled
        rw [reacts] at report
        have represents' := (report.running _ rfl).1
        have closes : (env.phaseRun (env.afterEvents front).2 (upstreamInputs [.upstreamEof])).2 =
            .ended := by
          cases (env.afterEvents front).2 <;> rfl
        obtain ⟨nothing, shape⟩ := upstreamInputs_of_run later represents'
        rw [nothing closes] at shape
        simpa using (List.append_eq_nil_iff.mp shape.symm).1
  have reads : upstreamReads (front ++ .upstreamEof :: rest) = upstreamReads front := by
    have parts : upstreamReads (front ++ .upstreamEof :: rest) =
        upstreamReads front ++ upstreamReads rest := by
      simp [upstreamReads, RelayEvent.received]
    rw [parts, silent, List.append_nil]
  refine ⟨front, rest, earlier, t, rfl, first, reads, ?_⟩
  have going_on : .upstreamEof ∉ front := eof_not_mem_of_open first (by simpa [relay] using polled)
  have inputs := (upstreamInputs_of_run first env.represents_initial).2
  rw [if_neg going_on, List.append_nil] at inputs
  rwa [inputs, ← reads] at represents

/-- Where the end of the stream finds nothing that runs over, it leaves an image behind. -/
theorem image_of_run (execution : env.relay.Run {} events outputs status)
    (ended : .upstreamEof ∈ events) (fits : env.FitsAtEof events) :
    ∃ shown, clientBytes outputs = shown ++ blockedReply outputs ∧
      env.Image true (upstreamReads events) shown (rewriteApplied outputs) := by
  obtain ⟨front, rest, earlier, t, cut, first, -, represents⟩ := run_until_eof execution ended
  obtain ⟨reached, opened⟩ := env.reached_afterReads (upstreamReads events)
  obtain ⟨client, rewrites⟩ := clientBytes_of_run execution
  have image := reached.eof_image opened
    (mt represents.runsOver_iff.mpr (fits front rest earlier t cut first))
  rw [afterEvents_of_ended execution ended] at client rewrites
  rw [rewrites]
  exact ⟨_, client, image⟩

theorem blockedReply_of_unblocked (unblocked : websocketBlocked outputs = false) :
    blockedReply outputs = [] := by
  rw [blockedReply, unblocked, if_neg Bool.false_ne_true]

/-- The relay never panics, and as long as no body is replaced it conserves the upstream stream:
the client is sent the stream itself when its header block is not found in time, and otherwise the
policy's header block followed by every byte behind the first empty line. -/
theorem relay_conserves_upstream_bytes (execution : env.relay.Run {} events outputs status) :
    status ≠ .halted .panicked ∧
      (.upstreamEof ∈ events → websocketBlocked outputs = false → rewriteApplied outputs = false →
        (¬ HeadersFound (upstreamReads events) →
          clientBytes outputs = (upstreamReads events).flatten) ∧
        (HeadersFound (upstreamReads events) →
          ∃ headerEnd, findHeadersEnd (upstreamReads events).flatten = some headerEnd ∧
            clientBytes outputs =
              env.outputHeaders ((upstreamReads events).flatten.take headerEnd) ++
                (upstreamReads events).flatten.drop headerEnd)) := by
  refine ⟨(run_report execution env.represents_initial).safe, fun ended unblocked unapplied => ?_⟩
  obtain ⟨shown, client, outcome⟩ := outcome_of_run execution ended
  rw [blockedReply_of_unblocked unblocked, List.append_nil] at client
  rw [client]
  rcases outcome.shows with ⟨unfound, rfl, -⟩ | ⟨headers, after, opened, shows⟩
  · exact ⟨fun _ => rfl, fun found => absurd found unfound⟩
  · obtain ⟨found, headerEnd, occurs, rfl, rfl⟩ := opened
    rcases shows with ⟨rfl, -⟩ | ⟨applied, -⟩
    · exact ⟨fun unfound => absurd found unfound, fun _ => ⟨headerEnd, occurs, rfl⟩⟩
    · exact absurd (unapplied.symm.trans applied) Bool.noConfusion

/-- A tracker's response in two reads between which the client sends its request. -/
def conservationEvents : List RelayEvent :=
  [.upstreamRead ⟨ascii "HTTP/1.1 200 OK\r\nSet-Cookie: id=1\r", by decide, by decide⟩,
    .clientRead ⟨ascii "GET / HTTP/1.1\r\n\r\n", by decide, by decide⟩,
    .upstreamRead ⟨ascii "\nServer: x\r\n\r\nbody", by decide, by decide⟩, .upstreamEof]

theorem relay_conserves_tracker_response :
    ∃ outputs status,
      (sampleTunnel (.defaultForMode .enforce) trackerHost).relay.Run {} conservationEvents outputs
        status ∧
      status ≠ .halted .panicked ∧
      ∃ headerEnd, findHeadersEnd (upstreamReads conservationEvents).flatten = some headerEnd ∧
        clientBytes outputs =
          (sampleTunnel (.defaultForMode .enforce) trackerHost).outputHeaders
            ((upstreamReads conservationEvents).flatten.take headerEnd) ++
          (upstreamReads conservationEvents).flatten.drop headerEnd := by
  have executes : ((sampleTunnel (.defaultForMode .enforce) trackerHost).relay.run {}
      conservationEvents).map (fun reaction =>
        (websocketBlocked reaction.outputs, rewriteApplied reaction.outputs)) =
      some (false, false) := by
    decide +kernel
  obtain ⟨outputs, status, execution, observed⟩ := Machine.exists_run _ _ _ _ executes
  have found : HeadersFound (upstreamReads conservationEvents) :=
    ⟨_, List.prefix_refl _, by decide, by decide⟩
  have conserved := relay_conserves_upstream_bytes execution
  exact ⟨outputs, status, execution, conserved.1,
    (conserved.2 (by decide) (congrArg Prod.fst observed) (congrArg Prod.snd observed)).2 found⟩

end RelayEnv

end PrivacyEngine
