import PrivacyEngine.Mitm.Relay

/-!
# The response side of the relay

The nine response variables of the relay loop encode four phases.  This file gives the phases as a
type of their own, with the reaction of each to an upstream read and to the end of the upstream
stream, and shows that the relay refines them: from a state that represents a phase, handling an
upstream event emits exactly the phase's effects and never panics.  A run of the relay then shows
the client exactly what the phases emit for its upstream reads, whatever the client reads between
them.
-/

namespace PrivacyEngine

open Wire Reactive

/-- How the end of a response body is announced. -/
inductive Framing where
  | chunked
  | length (expected : Nat)
  | untilClose
  deriving DecidableEq

/-- Framing the relay reads from a header block. -/
def framingOf (headers : Bytes) : Framing :=
  if hasTransferEncodingChunked headers then .chunked
  else
    match extractContentLength headers with
    | some expected => .length expected
    | none => .untilClose

/-- Where the relay stands in the upstream stream. -/
inductive ResponsePhase where
  | awaitingHeaders (pending : Bytes)
  | holdingBody (headers body : Bytes)
  | passingThrough
  | ended
  deriving DecidableEq

/-- One upstream input: the bytes of a read, or the end of the stream. -/
inductive UpstreamInput where
  | read (bytes : Bytes)
  | eof
  deriving DecidableEq

namespace RelayEnv

variable (env : RelayEnv)

/-! ## Reactions of the phases -/

/-- Give up on the held body: send it as received. -/
def skipBody (headers body : Bytes) : List Effect × ResponsePhase :=
  (env.recordSkipped ++ [.log .bodyRewriteSkipped] ++ [headers, body].map .writeClient,
    .passingThrough)

/-- Send a finished body and pass the rest of the stream through. -/
def sendBody (sent : List Effect × List Bytes) : List Effect × ResponsePhase :=
  (sent.1 ++ sent.2.map .writeClient, .passingThrough)

/-- Reaction to a held body that has just grown. -/
def growBody (headers body : Bytes) : List Effect × ResponsePhase :=
  let encoding := extractContentEncoding headers
  match framingOf headers with
  | .chunked =>
      if env.rewritePlan.maxBodyBytes ≤ body.length then env.skipBody headers body
      else
        match tryDecodeChunkedMessage body with
        | some (decoded, consumed) =>
            sendBody
              (env.finishChunked headers env.rewritePlan encoding body decoded (body.drop consumed))
        | none => ([], .holdingBody headers body)
  | .length expected =>
      if expected ≤ body.length then
        sendBody
          (env.finishPlain headers env.rewritePlan encoding (body.take expected)
            (body.drop expected))
      else if env.rewritePlan.maxBodyBytes ≤ body.length then env.skipBody headers body
      else ([], .holdingBody headers body)
  | .untilClose =>
      if env.rewritePlan.maxBodyBytes ≤ body.length then env.skipBody headers body
      else ([], .holdingBody headers body)

/-- Reaction to a complete header block and the bytes read behind it. -/
def openResponse (headerBlock remainder : Bytes) : List Effect × ResponsePhase :=
  let headers := env.outputHeaders headerBlock
  let effects := env.headerEffects headerBlock
  let direct := (headers :: nonEmptyPart remainder).map Effect.writeClient
  if env.canRewrite headers then
    if (extractContentLength headers).any (env.rewritePlan.maxBodyBytes < ·) then
      (effects ++ env.recordSkipped ++ direct, .passingThrough)
    else (effects, .holdingBody headers remainder)
  else (effects ++ direct, .passingThrough)

/-- Parts that empty a held body at the end of the stream. -/
def flushHeld (headers body : Bytes) : List Effect × List Bytes :=
  let encoding := extractContentEncoding headers
  match framingOf headers with
  | .chunked =>
      match tryDecodeChunkedMessage body with
      | some (decoded, consumed) =>
          env.finishChunked headers env.rewritePlan encoding body decoded (body.drop consumed)
      | none => ([], [headers, body])
  | .length _ | .untilClose => env.finishPlain headers env.rewritePlan encoding body []

/-- Reaction of a phase to an upstream input. -/
def phaseStep : ResponsePhase → UpstreamInput → List Effect × ResponsePhase
  | .awaitingHeaders pending, .read chunk =>
      if maxHttp1HeaderBytes < (pending ++ chunk).length then
        ([.log (.policyFilterFallback (pending ++ chunk).length), .writeClient (pending ++ chunk)],
          .passingThrough)
      else
        match findHeadersEnd (pending ++ chunk) with
        | none => ([], .awaitingHeaders (pending ++ chunk))
        | some headerEnd =>
            env.openResponse ((pending ++ chunk).take headerEnd) ((pending ++ chunk).drop headerEnd)
  | .awaitingHeaders pending, .eof =>
      ((nonEmptyPart pending).map .writeClient ++ [.shutdownClient], .ended)
  | .holdingBody headers body, .read chunk => env.growBody headers (body ++ chunk)
  | .holdingBody headers body, .eof =>
      ((env.flushHeld headers body).1 ++ (env.flushHeld headers body).2.map .writeClient ++
        [.shutdownClient], .ended)
  | .passingThrough, .read chunk => ([.writeClient chunk], .passingThrough)
  | .passingThrough, .eof => ([.shutdownClient], .ended)
  | .ended, _ => ([], .ended)

/-- Reaction of a phase to a sequence of upstream inputs. -/
def phaseRun : ResponsePhase → List UpstreamInput → List Effect × ResponsePhase
  | phase, [] => ([], phase)
  | phase, input :: inputs =>
      let now := env.phaseStep phase input
      let later := phaseRun now.2 inputs
      (now.1 ++ later.1, later.2)

theorem phaseRun_append (phase : ResponsePhase) (left right : List UpstreamInput) :
    env.phaseRun phase (left ++ right) =
      ((env.phaseRun phase left).1 ++ (env.phaseRun (env.phaseRun phase left).2 right).1,
        (env.phaseRun (env.phaseRun phase left).2 right).2) := by
  induction left generalizing phase with
  | nil => simp [phaseRun]
  | cons input left ih => simp [phaseRun, ih]

/-- A read never ends the stream. -/
theorem phaseStep_read_ne_ended {phase : ResponsePhase} (opened : phase ≠ .ended) (chunk : Bytes) :
    (env.phaseStep phase (.read chunk)).2 ≠ .ended := by
  cases phase with
  | awaitingHeaders pending =>
      rw [phaseStep]
      split
      · simp
      · split
        · simp
        · unfold openResponse
          dsimp only
          split
          · split <;> simp
          · simp
  | holdingBody headers body =>
      rw [phaseStep]
      unfold growBody skipBody sendBody
      dsimp only
      split
      · split
        · simp
        · split <;> simp
      · split
        · simp
        · split <;> simp
      · split <;> simp
  | passingThrough => simp [phaseStep]
  | ended => exact absurd rfl opened

/-! ## Representation of phases by relay states -/

/-- The relay state is in the given phase. -/
def Represents (s : RelayState) : ResponsePhase → Prop
  | .awaitingHeaders pending =>
      s.upstreamClosed = false ∧ s.firstResponseFiltered = false ∧ s.bufferingBody = false ∧
        s.pending = pending
  | .holdingBody headers body =>
      s.upstreamClosed = false ∧ s.firstResponseFiltered = true ∧ s.bufferingBody = true ∧
        s.pending = [] ∧ s.bodyBuffer = body ∧ s.bodyRewritePlan = some env.rewritePlan ∧
        s.deferredHeaders = some headers ∧
        s.bufferingChunked = hasTransferEncodingChunked headers ∧
        s.expectedBodyLen =
          (if hasTransferEncodingChunked headers then none else extractContentLength headers) ∧
        s.bufferedContentEncoding = extractContentEncoding headers
  | .passingThrough =>
      s.upstreamClosed = false ∧ s.firstResponseFiltered = true ∧ s.bufferingBody = false ∧
        s.pending = []
  | .ended => s.upstreamClosed = true ∧ s.bufferingBody = false ∧ s.pending = []

theorem represents_initial : env.Represents {} (.awaitingHeaders []) := ⟨rfl, rfl, rfl, rfl⟩

/-- Representation does not read the client variables. -/
theorem Represents.client {env : RelayEnv} {s : RelayState} {phase : ResponsePhase}
    (represents : env.Represents s phase) (closed checked : Bool) (bytes : Nat) :
    env.Represents
      { s with
        clientClosed := closed, firstRequestChecked := checked, clientToServerBytes := bytes }
      phase := by
  cases phase <;> exact represents

/-- The client variables are the same in two states. -/
def SameClient (s t : RelayState) : Prop :=
  t.clientClosed = s.clientClosed ∧ t.firstRequestChecked = s.firstRequestChecked

/-- A reaction that goes on, emits the effects of a phase reaction and represents the phase
reached. -/
def Follows (s : RelayState) (reaction : RelayReaction) (now : List Effect × ResponsePhase) :
    Prop :=
  ∃ t, reaction = ⟨now.1, .running t⟩ ∧ env.Represents t now.2 ∧ SameClient s t

theorem onHeaderBytes_follows {s : RelayState} {pending : Bytes}
    (represents : env.Represents s (.awaitingHeaders pending)) (chunk : Bytes) :
    env.Follows s (env.onHeaderBytes s chunk)
      (env.phaseStep (.awaitingHeaders pending) (.read chunk)) := by
  obtain ⟨opened, unfiltered, idle, rfl⟩ := represents
  unfold onHeaderBytes phaseStep
  dsimp only
  split
  · exact ⟨_, rfl, ⟨opened, rfl, idle, rfl⟩, rfl, rfl⟩
  · cases found : findHeadersEnd (s.pending ++ chunk) with
    | none => exact ⟨_, rfl, ⟨opened, unfiltered, idle, rfl⟩, rfl, rfl⟩
    | some headerEnd =>
        have in_range := findHeadersEnd_le found
        simp only [sliceTo_eq_some in_range, sliceFrom_eq_some in_range]
        unfold openResponse
        dsimp only
        split
        · split
          · exact ⟨_, rfl, ⟨opened, rfl, idle, rfl⟩, rfl, rfl⟩
          · exact ⟨_, rfl, ⟨opened, rfl, rfl, rfl, rfl, rfl, rfl, rfl, rfl, rfl⟩, rfl, rfl⟩
        · exact ⟨_, rfl, ⟨opened, rfl, idle, rfl⟩, rfl, rfl⟩

theorem framingOf_chunked {headers : Bytes} (chunked : hasTransferEncodingChunked headers = true) :
    framingOf headers = .chunked := by
  simp [framingOf, chunked]

theorem framingOf_length {headers : Bytes} (plain : hasTransferEncodingChunked headers = false)
    {expected : Nat} (announced : extractContentLength headers = some expected) :
    framingOf headers = .length expected := by
  simp [framingOf, plain, announced]

theorem framingOf_untilClose {headers : Bytes} (plain : hasTransferEncodingChunked headers = false)
    (unannounced : extractContentLength headers = none) : framingOf headers = .untilClose := by
  simp [framingOf, plain, unannounced]

theorem framingOf_eq_length {headers : Bytes} {expected : Nat}
    (framing : framingOf headers = .length expected) :
    hasTransferEncodingChunked headers = false ∧ extractContentLength headers = some expected := by
  cases is_chunked : hasTransferEncodingChunked headers with
  | true =>
      rw [framingOf_chunked is_chunked] at framing
      cases framing
  | false =>
      cases announced : extractContentLength headers with
      | none =>
          rw [framingOf_untilClose is_chunked announced] at framing
          cases framing
      | some n =>
          rw [framingOf_length is_chunked announced] at framing
          cases framing
          exact ⟨rfl, rfl⟩

theorem onBodyBytes_follows {s : RelayState} {headers body : Bytes}
    (represents : env.Represents s (.holdingBody headers body)) (chunk : Bytes) :
    env.Follows s (env.onBodyBytes s chunk)
      (env.phaseStep (.holdingBody headers body) (.read chunk)) := by
  obtain ⟨opened, filtered, holding, empty, rfl, plan, deferred, chunked, expected, encoding⟩ :=
    represents
  have held : env.Represents { s with bodyBuffer := s.bodyBuffer ++ chunk }
      (.holdingBody headers (s.bodyBuffer ++ chunk)) :=
    ⟨opened, filtered, holding, empty, rfl, plan, deferred, chunked, expected, encoding⟩
  simp only [phaseStep, growBody]
  cases is_chunked : hasTransferEncodingChunked headers with
  | true =>
      rw [is_chunked, if_pos rfl] at expected
      rw [framingOf_chunked is_chunked]
      by_cases limit : env.rewritePlan.maxBodyBytes ≤ (s.bodyBuffer ++ chunk).length
      · simp only [onBodyBytes, plan, deferred, chunked, is_chunked, expected, if_pos limit,
          decide_eq_true limit]
        exact ⟨_, rfl, ⟨opened, rfl, rfl, empty⟩, rfl, rfl⟩
      · cases decodes : tryDecodeChunkedMessage (s.bodyBuffer ++ chunk) with
        | none =>
            simp only [onBodyBytes, plan, chunked, is_chunked, expected, if_neg limit,
              decide_eq_false limit, decodes]
            exact ⟨_, rfl, by simpa [plan, chunked, is_chunked, expected] using held, rfl, rfl⟩
        | some message =>
            obtain ⟨decoded, consumed⟩ := message
            have in_range := tryDecode_consumed_le decodes
            simp only [onBodyBytes, plan, deferred, chunked, is_chunked, expected, if_neg limit,
              decide_eq_false limit, Bool.not_false, Bool.and_self, if_true, decodes, encoding,
              Bool.false_and, Bool.false_eq_true, if_false, sliceFrom_eq_some in_range]
            exact ⟨_, rfl, ⟨opened, rfl, rfl, empty⟩, rfl, rfl⟩
  | false =>
      rw [is_chunked, if_neg Bool.false_ne_true] at expected
      cases announced : extractContentLength headers with
      | none =>
          rw [framingOf_untilClose is_chunked announced]
          by_cases limit : env.rewritePlan.maxBodyBytes ≤ (s.bodyBuffer ++ chunk).length
          · simp only [onBodyBytes, plan, deferred, chunked, is_chunked, expected, announced,
              if_pos limit, decide_eq_true limit]
            exact ⟨_, rfl, ⟨opened, rfl, rfl, empty⟩, rfl, rfl⟩
          · simp only [onBodyBytes, plan, chunked, is_chunked, expected, announced,
              if_neg limit, decide_eq_false limit]
            exact ⟨_, rfl, by simpa [plan, chunked, is_chunked, expected, announced] using held,
              rfl, rfl⟩
      | some n =>
          rw [framingOf_length is_chunked announced]
          by_cases complete : n ≤ (s.bodyBuffer ++ chunk).length
          · simp only [onBodyBytes, plan, deferred, chunked, is_chunked, expected, announced,
              encoding, Option.any_some, if_pos complete, decide_eq_true complete,
              sliceTo_eq_some complete, sliceFrom_eq_some complete]
            simp only [Bool.false_and, Bool.and_false, Bool.not_true, if_false, if_true,
              Bool.false_eq_true]
            exact ⟨_, rfl, ⟨opened, rfl, rfl, empty⟩, rfl, rfl⟩
          · by_cases limit : env.rewritePlan.maxBodyBytes ≤ (s.bodyBuffer ++ chunk).length
            · simp only [onBodyBytes, plan, deferred, chunked, is_chunked, expected, announced,
                Option.any_some, if_neg complete, decide_eq_false complete, if_pos limit,
                decide_eq_true limit]
              exact ⟨_, rfl, ⟨opened, rfl, rfl, empty⟩, rfl, rfl⟩
            · simp only [onBodyBytes, plan, chunked, is_chunked, expected, announced,
                Option.any_some, if_neg complete, decide_eq_false complete, if_neg limit,
                decide_eq_false limit]
              exact ⟨_, rfl, by simpa [plan, chunked, is_chunked, expected, announced] using held,
                rfl, rfl⟩

/-- From a state in an open phase, an upstream read is handled as the phase prescribes. -/
theorem onUpstreamRead_follows {s : RelayState} {phase : ResponsePhase}
    (represents : env.Represents s phase) (opened : s.upstreamClosed = false) (chunk : Bytes) :
    env.Follows s (env.onUpstreamRead s chunk) (env.phaseStep phase (.read chunk)) := by
  cases phase with
  | awaitingHeaders pending =>
      obtain ⟨-, unfiltered, idle, -⟩ := id represents
      simpa [onUpstreamRead, unfiltered, idle] using env.onHeaderBytes_follows represents chunk
  | holdingBody headers body =>
      obtain ⟨-, -, holding, -⟩ := id represents
      simpa [onUpstreamRead, holding] using env.onBodyBytes_follows represents chunk
  | passingThrough =>
      obtain ⟨-, filtered, idle, empty⟩ := represents
      simp only [onUpstreamRead, filtered, idle, phaseStep]
      exact ⟨_, rfl, ⟨opened, filtered, idle, empty⟩, rfl, rfl⟩
  | ended => exact absurd (represents.1.symm.trans opened) Bool.noConfusion

/-- From a state in an open phase, the end of the upstream stream is handled as the phase
prescribes. -/
theorem onUpstreamEof_follows {s : RelayState} {phase : ResponsePhase}
    (represents : env.Represents s phase) (opened : s.upstreamClosed = false) :
    env.Follows s (env.onUpstreamEof s) (env.phaseStep phase .eof) := by
  obtain ⟨toServer, toClient, clientClosed, upstreamClosed, filtered, pending, checked, buffering,
    bodyBuffer, plan, deferred, expected, encoding, chunked⟩ := s
  cases phase with
  | awaitingHeaders held =>
      obtain ⟨-, -, rfl, rfl⟩ := represents
      simp only [onUpstreamEof, phaseStep, Bool.false_eq_true, if_false, List.map_nil,
        List.append_nil]
      exact ⟨_, rfl, ⟨rfl, rfl, rfl⟩, rfl, rfl⟩
  | holdingBody headers body =>
      obtain ⟨-, -, rfl, rfl, rfl, rfl, rfl, rfl, -, rfl⟩ := represents
      have flushed : ∀ closed filtered expected,
          env.flushBody ⟨toServer, toClient, clientClosed, closed, filtered, [], checked, true,
            bodyBuffer, some env.rewritePlan, some headers, expected,
            extractContentEncoding headers,
            hasTransferEncodingChunked headers⟩ env.rewritePlan =
          some (env.flushHeld headers bodyBuffer) := by
        intro closed filtered expected
        cases is_chunked : hasTransferEncodingChunked headers with
        | true =>
            cases decodes : tryDecodeChunkedMessage bodyBuffer with
            | none => simp [flushBody, flushHeld, framingOf_chunked is_chunked, decodes]
            | some message =>
                obtain ⟨decoded, consumed⟩ := message
                simp [flushBody, flushHeld, framingOf_chunked is_chunked, decodes,
                  sliceFrom_eq_some (tryDecode_consumed_le decodes)]
        | false =>
            cases announced : extractContentLength headers with
            | none => simp [flushBody, flushHeld, framingOf_untilClose is_chunked announced]
            | some n => simp [flushBody, flushHeld, framingOf_length is_chunked announced]
      simp only [onUpstreamEof, phaseStep, if_true, flushed, Option.map_some]
      exact ⟨_, rfl, ⟨rfl, rfl, rfl⟩, rfl, rfl⟩
  | passingThrough =>
      obtain ⟨-, -, rfl, rfl⟩ := represents
      simp only [onUpstreamEof, phaseStep, Bool.false_eq_true, if_false]
      exact ⟨_, rfl, ⟨rfl, rfl, rfl⟩, rfl, rfl⟩
  | ended => exact absurd (represents.1.symm.trans opened) Bool.noConfusion

/-! ## Effects of the response side -/

theorem responding_record {entry : Receipt} (counted : entry.Counted) :
    Responding env.targetHost (env.record entry) := by
  unfold record
  split
  · exact List.forall_mem_singleton.mpr ⟨rfl, counted⟩
  · exact responding_nil

theorem responding_recordSkipped : Responding env.targetHost env.recordSkipped :=
  .cons trivial (env.responding_record trivial)

theorem responding_attempt (body : Bytes) (plan : BodyRewritePlan) (encoding : Option Str) :
    Responding env.targetHost (env.attemptBodyRewrite body plan encoding).2 := by
  unfold attemptBodyRewrite
  split
  · exact .cons (by simp [Effect.Responds]) env.responding_recordSkipped
  · split
    · exact env.responding_recordSkipped.append (responding_log (by simp))
    · split
      · exact .append (.cons trivial (env.responding_record trivial)) (responding_log (by simp))
      · split
        · exact .cons (by simp [Effect.Responds]) env.responding_recordSkipped
        · exact .append (.cons trivial (env.responding_record trivial)) (responding_log (by simp))

theorem bookkeeping_headerEffects (headerBlock : Bytes) :
    Bookkeeping (env.headerEffects headerBlock) := by
  have recorded := env.bookkeeping_record
  have nothing : Bookkeeping [] := List.forall_mem_nil _
  refine List.forall_mem_append.mpr ⟨?_, ?_⟩
  · unfold cookieEffects
    split
    · refine List.forall_mem_append.mpr
        ⟨List.forall_mem_append.mpr ⟨?_, ?_⟩, List.forall_mem_singleton.mpr rfl⟩
      · split
        · exact List.forall_mem_singleton.mpr rfl
        · exact nothing
      · split <;> exact recorded _
    · exact nothing
  · split
    · exact List.forall_mem_append.mpr
        ⟨List.forall_mem_cons.mpr ⟨rfl, recorded _⟩, List.forall_mem_singleton.mpr rfl⟩
    · exact nothing

/-- A report about cookies has seen one. -/
theorem responding_cookieEffects (headerBlock : Bytes) :
    Responding env.targetHost (env.cookieEffects (env.headerOutcome headerBlock)) := by
  unfold cookieEffects
  split
  · rename_i hit
    have positive : 0 < (env.headerOutcome headerBlock).setCookieCount :=
      PolicyEngine.setCookieCount_pos hit
    have mode : (if (env.headerOutcome headerBlock).enforcementApplied then PolicyMode.enforce
        else .reportOnly) ≠ .disabled := by
      split <;> decide
    refine .append (.append ?_ ?_) (responding_log (by simp))
    · split
      · exact .cons trivial responding_nil
      · exact responding_nil
    · split
      · exact env.responding_record ⟨mode, positive⟩
      · exact env.responding_record ⟨mode, positive⟩
  · exact responding_nil

theorem responding_headerEffects (headerBlock : Bytes) :
    Responding env.targetHost (env.headerEffects headerBlock) := by
  refine (env.responding_cookieEffects headerBlock).append ?_
  split
  · exact .append (.cons (by simp [Effect.Responds]) (env.responding_record trivial))
      (.cons trivial responding_nil)
  · exact responding_nil

theorem responding_sendBody {host : Str} {sent : List Effect × List Bytes}
    (side : Responding host sent.1) :
    Responding host (sendBody sent).1 := side.append (responding_writes _)

theorem responding_skipBody (headers body : Bytes) :
    Responding env.targetHost (env.skipBody headers body).1 :=
  (env.responding_recordSkipped.append (responding_log (by simp))).append (responding_writes _)

theorem responding_growBody (headers body : Bytes) :
    Responding env.targetHost (env.growBody headers body).1 := by
  have skipped := env.responding_skipBody headers body
  have attempted := env.responding_attempt
  unfold growBody
  dsimp only
  split
  · split
    · exact skipped
    · split
      · exact responding_sendBody (attempted _ _ _)
      · exact responding_nil
  · split
    · exact responding_sendBody (attempted _ _ _)
    · split
      · exact skipped
      · exact responding_nil
  · split
    · exact skipped
    · exact responding_nil

theorem responding_flushHeld (headers body : Bytes) :
    Responding env.targetHost (env.flushHeld headers body).1 := by
  have attempted := env.responding_attempt
  unfold flushHeld
  dsimp only
  split
  · split
    · exact attempted _ _ _
    · exact responding_nil
  · exact attempted _ _ _
  · exact attempted _ _ _

theorem responding_openResponse (headerBlock remainder : Bytes) :
    Responding env.targetHost (env.openResponse headerBlock remainder).1 := by
  have direct := env.responding_headerEffects headerBlock
  unfold openResponse
  dsimp only
  split
  · split
    · exact (direct.append env.responding_recordSkipped).append (responding_writes _)
    · exact direct
  · exact direct.append (responding_writes _)

theorem responding_phaseStep (phase : ResponsePhase) (input : UpstreamInput) :
    Responding env.targetHost (env.phaseStep phase input).1 := by
  have shutdown : Responding env.targetHost [.shutdownClient] := .cons trivial responding_nil
  cases phase with
  | awaitingHeaders pending =>
      cases input with
      | eof => exact (responding_writes _).append shutdown
      | read chunk =>
          rw [phaseStep]
          split
          · exact (responding_log (by simp)).append (responding_writes [pending ++ chunk])
          · split
            · exact responding_nil
            · exact env.responding_openResponse _ _
  | holdingBody headers body =>
      cases input with
      | eof =>
          exact ((env.responding_flushHeld _ _).append (responding_writes _)).append shutdown
      | read chunk => exact env.responding_growBody _ _
  | passingThrough =>
      cases input with
      | eof => exact shutdown
      | read chunk => exact responding_writes [chunk]
  | ended => exact responding_nil

end RelayEnv

end PrivacyEngine
