import PrivacyEngine.Reactive
import PrivacyEngine.Mitm.BodyRewrite
import PrivacyEngine.Mitm.Chunked
import PrivacyEngine.Mitm.Request

/-!
# The HTTP/1.1 relay

`relay_with_first_response_header_policy` as an event-driven machine.  An event is the completion
of one read on either side; handling it performs a sequence of writes, half-closes, counters,
receipts and log entries and leaves the local variables of the loop in a new state.  A slice out of
range or a failed `unwrap` is the verdict `panicked`.
-/

namespace PrivacyEngine

open Wire Reactive

def maxHttp1HeaderBytes : Nat := 64 * 1024

/-- Size of the two read buffers. -/
def readBufferBytes : Nat := 8192

/-- The bytes of one successful read that did not hit the end of the stream. -/
structure ReadChunk where
  bytes : Bytes
  nonempty : 0 < bytes.length
  fits : bytes.length ≤ readBufferBytes
  deriving DecidableEq

/-- Completion of a read on one of the two sides. -/
inductive RelayEvent where
  | clientRead (chunk : ReadChunk)
  | clientEof
  | clientError (error : IoError)
  | upstreamRead (chunk : ReadChunk)
  | upstreamEof
  | upstreamError (error : IoError)
  deriving DecidableEq

/-- How the relay ends. -/
inductive RelayVerdict where
  | returned
  | failed (error : IoError)
  | panicked
  deriving DecidableEq

/-- Local variables of the relay loop. -/
structure RelayState where
  clientToServerBytes : Nat := 0
  serverToClientBytes : Nat := 0
  clientClosed : Bool := false
  upstreamClosed : Bool := false
  firstResponseFiltered : Bool := false
  pending : Bytes := []
  firstRequestChecked : Bool := false
  bufferingBody : Bool := false
  bodyBuffer : Bytes := []
  bodyRewritePlan : Option BodyRewritePlan := none
  deferredHeaders : Option Bytes := none
  expectedBodyLen : Option Nat := none
  bufferedContentEncoding : Option Str := none
  bufferingChunked : Bool := false
  deriving DecidableEq

abbrev RelayReaction := Reaction RelayState Effect RelayVerdict

/-- A part that is only written when it is not empty. -/
def nonEmptyPart (part : Bytes) : List Bytes := if part = [] then [] else [part]

@[simp] theorem flatten_nonEmptyPart (part : Bytes) : (nonEmptyPart part).flatten = part := by
  unfold nonEmptyPart
  split <;> simp [*]

namespace RelayState

/-- Write parts to the client, count them, and go on. -/
def reply (s : RelayState) (effects : List Effect) (parts : List Bytes) : RelayReaction where
  outputs := effects ++ parts.map .writeClient
  status := .running
    { s with serverToClientBytes := s.serverToClientBytes + (parts.map List.length).sum }

end RelayState

namespace RelayEnv

variable (env : RelayEnv)

def sessionPlan : SessionPlan :=
  env.policyEngine.planForHostWithSourceIp env.targetHost env.sourceIp

def rewritePlan : BodyRewritePlan := env.policyEngine.planForBodyRewrite env.targetHost

/-! ## Client side -/

def websocketBlockedResponse : Bytes :=
  ascii "HTTP/1.1 403 Forbidden\r\nContent-Length: 0\r\nConnection: close\r\n\r\n"

/-- Whether a first request is answered with 403. -/
def blocksWebsocket (buf : Bytes) : Bool :=
  env.sessionPlan.trackerMatch && env.sessionPlan.websocketBlockingEnabled &&
    requestHasWebsocketUpgrade buf

/-- One optional filter of the first request: it reads the buffer as left by the filters before
it, and falls through when it does not apply. -/
def filterStep (buf : Bytes) (enabled : Bool) (filter : Bytes → Option Bytes) (event : LogEvent)
    (entry : Receipt) (counter : Metric) (before : Option Bytes × List Effect) :
    Option Bytes × List Effect :=
  match (if enabled then filter (before.1.getD buf) else none) with
  | some modified =>
      (some modified, before.2 ++ .log event :: env.record entry ++ [.metric counter])
  | none => before

/-- The changed first request, if any filter applies. -/
def filterRequest (buf : Bytes) : Option Bytes × List Effect :=
  env.filterStep buf env.sessionPlan.trackerMatch stripCacheRequestHeaders
    .cacheRequestHeadersStripped .cacheHeadersStripped .cacheHeadersStrippedTotal
    (env.filterStep buf env.rewritePlan.queryParamStrip stripTrackingQueryParams
      .queryParamsStripped .queryParamsStripped .queryParamsStrippedTotal
      (env.filterStep buf env.rewritePlan.refererSpoof injectGoogleReferer
        .refererSpoofed .refererSpoofed .refererSpoofedTotal (none, [])))

/-- Write a request upstream, count it, and go on. -/
def forward (s : RelayState) (effects : List Effect) (bytes : Bytes) : RelayReaction where
  outputs := effects ++ [.writeUpstream bytes]
  status := .running { s with clientToServerBytes := s.clientToServerBytes + bytes.length }

def onClientRead (s : RelayState) (buf : Bytes) : RelayReaction :=
  if s.firstRequestChecked then forward s [] buf
  else
    let s := { s with firstRequestChecked := true }
    let profile := env.sessionPlan.userProfileName.toList.map fun name =>
      Effect.log (.userProfileApplied name)
    if env.blocksWebsocket buf then
      { outputs := profile ++ .log .websocketBlocked :: env.record .websocketBlocked ++
          [.metric .websocketBlockedTotal, .writeClient websocketBlockedResponse]
        status := .halted .returned }
    else
      let filtered := env.filterRequest buf
      forward s (profile ++ filtered.2) (filtered.1.getD buf)

def onClientEof (s : RelayState) : RelayReaction where
  outputs := [.shutdownUpstream]
  status := .running { s with clientClosed := true }

/-! ## First response headers -/

/-- Receipts and log entry of the Set-Cookie rule. -/
def cookieEffects (outcome : HeaderPolicyOutcome) : List Effect :=
  if outcome.reportOnlyHit || outcome.enforcementApplied then
    let mode := if outcome.enforcementApplied then PolicyMode.enforce else .reportOnly
    (if outcome.consentEnforcementActive && outcome.enforcementApplied then
      [.metric .consentEnforcementBlockedTotal] else []) ++
    (if outcome.consentEnforcementActive then
      env.record (.consentEnforcement mode outcome.setCookieCount)
    else env.record (.policySetCookie mode outcome.setCookieCount)) ++
    [.log (.policySetCookieRule mode outcome.setCookieCount)]
  else []

/-- The header block without the cache fields of a tracker, when it has any. -/
def strippedForTracker (outcome : HeaderPolicyOutcome) : Option Bytes :=
  if outcome.trackerMatch then cacheStrippedHeaders outcome.outputHeaders else none

/-- The policy's outcome for a response header block. -/
def headerOutcome (headerBlock : Bytes) : HeaderPolicyOutcome :=
  env.policyEngine.applyHttp1ResponseHeaderPolicy env.targetHost headerBlock env.sourceIp

/-- The policy's output header block. -/
def outputHeaders (headerBlock : Bytes) : Bytes :=
  (strippedForTracker (env.headerOutcome headerBlock)).getD
    (env.headerOutcome headerBlock).outputHeaders

/-- The output block is the policy's, or that block closed around fewer lines. -/
theorem outputHeaders_cases (headerBlock : Bytes) :
    env.outputHeaders headerBlock = (env.headerOutcome headerBlock).outputHeaders ∨
      (env.headerOutcome headerBlock).trackerMatch = true ∧
        cacheStrippedHeaders (env.headerOutcome headerBlock).outputHeaders =
          some (env.outputHeaders headerBlock) := by
  unfold outputHeaders strippedForTracker
  split
  · rename_i tracked
    cases strips : cacheStrippedHeaders (env.headerOutcome headerBlock).outputHeaders with
    | none => exact .inl rfl
    | some stripped => exact .inr ⟨tracked, rfl⟩
  · exact .inl rfl

def headerEffects (headerBlock : Bytes) : List Effect :=
  env.cookieEffects (env.headerOutcome headerBlock) ++
    match strippedForTracker (env.headerOutcome headerBlock) with
    | some _ =>
        .log .cacheResponseHeadersStripped :: env.record .cacheHeadersStripped ++
          [.metric .cacheHeadersStrippedTotal]
    | none => []

def encodingOk : Option Str → Bool
  | none => true
  | some encoding => encoding == ascii "identity" || codedEncodings.contains encoding

/-- Whether the body behind these headers may be rewritten. -/
def canRewrite (headers : Bytes) : Bool :=
  env.rewritePlan.shouldRewrite && responseIsHtml headers &&
    encodingOk (extractContentEncoding headers)

def onHeaderBytes (s : RelayState) (chunk : Bytes) : RelayReaction :=
  let pending := s.pending ++ chunk
  if maxHttp1HeaderBytes < pending.length then
    RelayState.reply { s with pending := [], firstResponseFiltered := true }
      [.log (.policyFilterFallback pending.length)] [pending]
  else
    match findHeadersEnd pending with
    | none => ⟨[], .running { s with pending := pending }⟩
    | some headerEnd =>
        match sliceTo pending headerEnd, sliceFrom pending headerEnd with
        | some headerBlock, some remainder =>
            let headers := env.outputHeaders headerBlock
            let effects := env.headerEffects headerBlock
            let s := { s with pending := [], firstResponseFiltered := true }
            if env.canRewrite headers then
              let contentLength := extractContentLength headers
              if contentLength.any (env.rewritePlan.maxBodyBytes < ·) then
                s.reply (effects ++ env.recordSkipped) (headers :: nonEmptyPart remainder)
              else
                { outputs := effects
                  status := .running
                    { s with
                      deferredHeaders := some headers
                      expectedBodyLen :=
                        if hasTransferEncodingChunked headers then none else contentLength
                      bodyRewritePlan := some env.rewritePlan
                      bufferingBody := true
                      bufferingChunked := hasTransferEncodingChunked headers
                      bufferedContentEncoding := extractContentEncoding headers
                      bodyBuffer := remainder } }
            else s.reply effects (headers :: nonEmptyPart remainder)
        | _, _ => ⟨[], .halted .panicked⟩

/-! ## First response body -/

/-- Parts sent for a complete chunked message: its rewriting under a Content-Length and the bytes
behind it, or the message as received. -/
def finishChunked (headers : Bytes) (plan : BodyRewritePlan) (encoding : Option Str)
    (bodyBuffer decoded overflow : Bytes) : List Effect × List Bytes :=
  let attempt := env.attemptBodyRewrite decoded plan encoding
  (attempt.2,
    match attempt.1 with
    | some rewritten =>
        replaceChunkedWithContentLength headers rewritten.length :: rewritten ::
          nonEmptyPart overflow
    | none => [headers, bodyBuffer])

/-- Parts sent for a body that is not chunked and the bytes behind it. -/
def finishPlain (headers : Bytes) (plan : BodyRewritePlan) (encoding : Option Str)
    (body overflow : Bytes) : List Effect × List Bytes :=
  let attempt := env.attemptBodyRewrite body plan encoding
  (attempt.2,
    match attempt.1 with
    | some rewritten =>
        replaceContentLength headers rewritten.length :: rewritten :: nonEmptyPart overflow
    | none => headers :: body :: nonEmptyPart overflow)

/-- State behind a finished body: headers and plan are taken. -/
def finished (s : RelayState) : RelayState :=
  { s with deferredHeaders := none, bodyRewritePlan := none, bufferingBody := false }

def onBodyBytes (s : RelayState) (chunk : Bytes) : RelayReaction :=
  let s := { s with bodyBuffer := s.bodyBuffer ++ chunk }
  match s.bodyRewritePlan with
  | none => ⟨[], .halted .panicked⟩
  | some plan =>
      let atLimit := decide (plan.maxBodyBytes ≤ s.bodyBuffer.length)
      let atContentLength := s.expectedBodyLen.any (· ≤ s.bodyBuffer.length)
      let chunkedParsed :=
        if s.bufferingChunked && !atLimit then tryDecodeChunkedMessage s.bodyBuffer else none
      let headers := s.deferredHeaders.getD []
      if atLimit && chunkedParsed.isNone && !atContentLength then
        RelayState.reply
          { finished s with bufferingChunked := false, firstResponseFiltered := true }
          (env.recordSkipped ++ [.log .bodyRewriteSkipped]) [headers, s.bodyBuffer]
      else
        match chunkedParsed with
        | some (decoded, consumedLen) =>
            match sliceFrom s.bodyBuffer consumedLen with
            | none => ⟨[], .halted .panicked⟩
            | some overflow =>
                let sent := env.finishChunked headers plan s.bufferedContentEncoding s.bodyBuffer
                  decoded overflow
                RelayState.reply
                  { finished s with bufferingChunked := false, firstResponseFiltered := true }
                  sent.1 sent.2
        | none =>
            if atContentLength then
              match s.expectedBodyLen with
              | none => ⟨[], .halted .panicked⟩
              | some expected =>
                  match sliceTo s.bodyBuffer expected, sliceFrom s.bodyBuffer expected with
                  | some body, some overflow =>
                      let sent := env.finishPlain headers plan s.bufferedContentEncoding body
                        overflow
                      RelayState.reply { finished s with firstResponseFiltered := true }
                        sent.1 sent.2
                  | _, _ => ⟨[], .halted .panicked⟩
            else ⟨[], .running s⟩

/-! ## Upstream side -/

def onUpstreamRead (s : RelayState) (chunk : Bytes) : RelayReaction :=
  if s.bufferingBody then env.onBodyBytes s chunk
  else if s.firstResponseFiltered then s.reply [] [chunk]
  else env.onHeaderBytes s chunk

/-- Effects and parts that empty the body buffer at the end of the upstream stream. -/
def flushBody (s : RelayState) (plan : BodyRewritePlan) : Option (List Effect × List Bytes) :=
  let headers := s.deferredHeaders.getD []
  if s.bufferingChunked then
    match tryDecodeChunkedMessage s.bodyBuffer with
    | some (decoded, consumedLen) =>
        (sliceFrom s.bodyBuffer consumedLen).map fun overflow =>
          env.finishChunked headers plan s.bufferedContentEncoding s.bodyBuffer decoded overflow
    | none => some ([], [headers, s.bodyBuffer])
  else some (env.finishPlain headers plan s.bufferedContentEncoding s.bodyBuffer [])

def onUpstreamEof (s : RelayState) : RelayReaction :=
  let pending := nonEmptyPart s.pending
  let s :=
    { s with
      upstreamClosed := true
      pending := []
      firstResponseFiltered := s.firstResponseFiltered || !s.pending.isEmpty }
  let flushed :=
    if s.bufferingBody then
      match s.bodyRewritePlan with
      | some plan =>
          (env.flushBody s plan).map fun sent =>
            (sent, { finished s with bufferingChunked := false })
      | none => some (([], []), { s with bufferingBody := false, bufferingChunked := false })
    else some (([], []), s)
  match flushed with
  | none => ⟨pending.map .writeClient, .halted .panicked⟩
  | some ((effects, parts), s) =>
      { outputs := pending.map .writeClient ++ effects ++ parts.map .writeClient ++
          [.shutdownClient]
        status := .running
          { s with
            serverToClientBytes :=
              s.serverToClientBytes + ((pending ++ parts).map List.length).sum } }

/-! ## The loop -/

/-- End of the loop body: leave the loop when both sides are closed. -/
def settle (reaction : RelayReaction) : RelayReaction :=
  match reaction.status with
  | .running s =>
      if s.clientClosed && s.upstreamClosed then
        { outputs := reaction.outputs ++
            [.log (.mitmHttp1Relay s.clientToServerBytes s.serverToClientBytes)]
          status := .halted .returned }
      else reaction
  | .halted _ => reaction

/-- The relay loop. -/
def relay : Machine RelayState RelayEvent Effect RelayVerdict where
  polls s
    | .clientRead _ | .clientEof | .clientError _ => !s.clientClosed
    | .upstreamRead _ | .upstreamEof | .upstreamError _ => !s.upstreamClosed
  react s
    | .clientRead chunk => settle (env.onClientRead s chunk.bytes)
    | .clientEof => settle (onClientEof s)
    | .clientError error => ⟨[], .halted (.failed error)⟩
    | .upstreamRead chunk => settle (env.onUpstreamRead s chunk.bytes)
    | .upstreamEof => settle (env.onUpstreamEof s)
    | .upstreamError error => ⟨[], .halted (.failed error)⟩

end RelayEnv

end PrivacyEngine
