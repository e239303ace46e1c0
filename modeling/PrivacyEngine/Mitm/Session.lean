import PrivacyEngine.Mitm.Conservation
import PrivacyEngine.Mitm.OutputHeaders

/-!
# Ends of intercepted sessions

A relay ends with a verdict, or a write or half-close of its last reaction fails and the rest of the
reaction is not carried out.  The session around it is recorded as a success when the relay returns
and also when its error looks like a peer that went away.  A successful session has lost no response
bytes unless the upstream side broke off while the relay held bytes back, the client could not be
written to, or the end of the stream found more bytes held than the held response announces.
-/

namespace PrivacyEngine

open Wire Reactive

inductive MitmError where
  | certGeneration (reason : Str)
  | clientTlsHandshake (reason : Str)
  | upstreamConnect (error : IoError)
  | invalidServerName (name : Str)
  | upstreamTlsHandshake (reason : Str)
  | relay (error : IoError)
  | caConfig (reason : Str)
  | caIo (error : IoError)
  deriving DecidableEq

namespace MitmError

def isBenignPeerClose : MitmError → Bool
  | relay error =>
      match error.kind with
      | .unexpectedEof | .connectionReset | .brokenPipe => true
      | _ => contains error.message (ascii "without sending TLS close_notify")
  | _ => false

end MitmError

/-- Result of a tunnel whose relay ended with a verdict; a panic yields none. -/
def RelayVerdict.tunnelResult : RelayVerdict → Option (Except MitmError Unit)
  | .returned => some (.ok ())
  | .failed error => some (.error (.relay error))
  | .panicked => none

/-- Whether `run_mitm_intercept` records the session as a success. -/
def recordsSuccess : Except MitmError Unit → Bool
  | .ok _ => true
  | .error error => error.isBenignPeerClose

namespace Effect

/-- Effects that wait for a peer and can fail. -/
def isIo : Effect → Bool
  | writeClient _ | writeUpstream _ | shutdownClient | shutdownUpstream => true
  | _ => false

/-- What a failing effect may still have done: a write may have sent some of its bytes. -/
def interrupted (sent : Nat) : Effect → List Effect
  | writeClient bytes => [writeClient (bytes.take sent)]
  | writeUpstream bytes => [writeUpstream (bytes.take sent)]
  | _ => []

end Effect

namespace RelayEnv

variable (env : RelayEnv)

/-- Ends of a relay: the events before the last one, the state they lead to, the last event, the
effects of the last reaction that were not carried out, everything that was, and the verdict. -/
inductive Ending : List RelayEvent → RelayState → RelayEvent → List Effect → List Effect →
    RelayVerdict → Prop
  | halts {events : List RelayEvent} {s : RelayState} {event : RelayEvent}
      {outputs now : List Effect} {verdict : RelayVerdict}
      (execution : env.relay.Run {} events outputs (.running s))
      (polled : env.relay.polls s event = true)
      (reacts : env.relay.react s event = ⟨now, .halted verdict⟩) :
      Ending events s event [] (outputs ++ now) verdict
  | breaks {events : List RelayEvent} {s : RelayState} {event : RelayEvent}
      {outputs done later : List Effect} {op : Effect} {error : IoError} {sent : Nat}
      (execution : env.relay.Run {} events outputs (.running s))
      (polled : env.relay.polls s event = true)
      (emits : (env.relay.react s event).outputs = done ++ op :: later) (io : op.isIo = true) :
      Ending events s event (op :: later) (outputs ++ (done ++ op.interrupted sent))
        (.failed error)

/-- The client has been sent an image of all upstream reads. -/
def Delivered (reads : List Bytes) (sent : Bytes) : Prop :=
  ∃ image applied, env.Image true reads image applied ∧ image <+: sent

/-- The last event finds nothing held back when it breaks the upstream side off, and no client bytes
are left to write when it ends the upstream stream, which does not end with a held response that
runs over. -/
structure KeepsReceived (events : List RelayEvent) (s : RelayState) (event : RelayEvent)
    (unsent : List Effect) : Prop where
  broken : ∀ error, event = .upstreamError error → s.pending = [] ∧ s.bufferingBody = false
  written : event = .upstreamEof → clientBytes unsent = []
  fits : env.FitsAtEof (events ++ [event])

variable {env} {events : List RelayEvent} {s : RelayState} {event : RelayEvent}
  {unsent outputs : List Effect} {verdict : RelayVerdict}

/-- What has been sent before the last event, and the phase it was sent in. -/
theorem reached_before (execution : env.relay.Run {} events outputs (.running s)) :
    ∃ effects phase, env.Reached (upstreamReads events) effects phase ∧ env.Represents s phase ∧
      clientBytes outputs = clientBytes effects := by
  have running := (run_report execution env.represents_initial).running s rfl
  have client := (clientBytes_of_run execution).1
  rw [blockedReply, running.2.2.2, if_neg Bool.false_ne_true, List.append_nil] at client
  exact ⟨_, _, (reached_of_run execution).1, running.1, client⟩

theorem outputHeaders_ne_nil {block : Bytes} (block_ne : block ≠ []) :
    env.outputHeaders block ≠ [] := by
  rcases env.outputHeaders_cases block with same | ⟨-, strips⟩
  · rw [same, headerOutcome]
    rcases env.policyEngine.outputHeaders_cases env.targetHost block env.sourceIp with
      unchanged | ⟨-, statusLine, lines, rest, rebuilt⟩
    · rwa [unchanged]
    · rw [rebuilt]
      simp [rebuildHeaders, crlf]
  · rw [(cacheStrippedHeaders_eq_some strips).2]
    exact closeHeaders_ne_nil _

theorem Opened.headers_ne_nil {reads : List Bytes} {headers after : Bytes}
    (opened : env.Opened reads headers after) : headers ≠ [] := by
  obtain ⟨-, headerEnd, occurs, rfl, -⟩ := opened
  apply outputHeaders_ne_nil
  have in_range := findHeadersEnd_le occurs
  obtain ⟨i, -, rfl⟩ := Option.map_eq_some_iff.mp occurs
  intro empty
  have length_eq := congrArg List.length empty
  rw [List.length_take, List.length_nil] at length_eq
  omega

/-- With a header block, no image is empty. -/
theorem Image.ne_nil {reads : List Bytes} {image : Bytes} {applied : Bool}
    (shown : env.Image true reads image applied) (found : HeadersFound reads) : image ≠ [] := by
  rcases (Outcome.image shown).shows with ⟨unfound, -⟩ | ⟨headers, after, opened, shows⟩
  · exact absurd found unfound
  · rcases shows with ⟨rfl, -⟩ | ⟨-, body, rewritten, rest, framed, -, blocks, rfl⟩
    · simp [opened.headers_ne_nil]
    · rcases blocks with rfl | rfl
      · simp [replaceContentLength, reframe, closeHeaders_ne_nil]
      · simp [replaceChunkedWithContentLength, reframe, closeHeaders_ne_nil]

/-! ## Bytes behind the announced length -/

/-- Blocks that end with their first empty line are the same when one message starts with the
other. -/
theorem closed_prefix {block block' rest rest' : Bytes}
    (ends : findHeadersEnd (block ++ rest) = some block.length)
    (ends' : findHeadersEnd (block' ++ rest') = some block'.length)
    (starts : block ++ rest <+: block' ++ rest') : block = block' ∧ rest <+: rest' := by
  obtain ⟨more, whole⟩ := starts
  have longer := findHeadersEnd_append ends more
  rw [whole, ends'] at longer
  rw [List.append_assoc] at whole
  obtain ⟨rfl, rfl⟩ := List.append_inj whole (Option.some.inj longer).symm
  exact ⟨rfl, List.prefix_append _ _⟩

theorem lengths_of_reframe {dropped : List Str} (named : contentLengthField ∈ dropped)
    {headers : Bytes} {length length' : Nat}
    (same : reframe dropped headers length = reframe dropped headers length') :
    length = length' := by
  have digits := firstFieldValue_reframe named headers length
  rw [same, firstFieldValue_reframe named] at digits
  exact (decimal_inj (Option.some.inj digits)).symm

/-- A body replaced together with bytes behind it is not the start of any image. -/
theorem not_image_of_overrun {reads : List Bytes} {headers after rewritten image : Bytes}
    {expected : Nat} {applied : Bool} (opened : env.Opened reads headers after)
    (framing : framingOf headers = .length expected) (exceeds : expected < after.length)
    (shown : env.Image true reads image applied) :
    ¬ image <+: replaceContentLength headers rewritten.length ++ rewritten := by
  have named : contentLengthField ∈ [contentLengthField] := by simp
  have ends : ∀ rest, findHeadersEnd (replaceContentLength headers rewritten.length ++ rest) =
      some (replaceContentLength headers rewritten.length).length :=
    findHeadersEnd_reframe _ _ _
  intro starts
  cases shown with
  | verbatim unfound settled => exact unfound opened.1
  | @filtered headers' after' opened' =>
      obtain ⟨rfl, rfl⟩ := opened.unique opened'
      have closed : crlfcrlf <:+ headers' := by
        obtain ⟨-, headerEnd, occurs, rfl, -⟩ := opened
        exact crlfcrlf_suffix_outputHeaders (findHeadersEnd_take occurs)
      have found : (findHeadersEnd headers').isSome = true := by
        rw [findHeadersEnd, Option.isSome_map, isSome_findSub_iff crlfcrlf_ne_nil]
        exact closed.isInfix
      obtain ⟨headerEnd, found⟩ := Option.isSome_iff_exists.mp found
      have split := List.take_append_drop headerEnd headers'
      have short : (headers'.take headerEnd).length = headerEnd :=
        List.length_take_of_le (findHeadersEnd_le found)
      have ends' := findHeadersEnd_append found after'
      rw [← split, List.append_assoc] at starts ends'
      rw [split] at starts
      obtain ⟨same, rest⟩ := closed_prefix (by rw [ends', short]) (ends rewritten) starts
      have announced := @firstFieldValue_append _
        (crlfcrlf_suffix_of_terminated (findHeadersEnd_take found)) contentLengthField (by decide) _
        (by rw [same]; exact firstFieldValue_reframe named headers' rewritten.length)
        (headers'.drop headerEnd)
      rw [split] at announced
      have length_eq := (framingOf_eq_length framing).2
      rw [extractContentLength, announced, Option.bind_some, fromStrRadix_decimal] at length_eq
      split at length_eq
      · have fits := rest.length_le
        rw [List.length_append] at fits
        have same_length := Option.some.inj length_eq
        omega
      · cases length_eq
  | chunked opened' holds framing' =>
      obtain ⟨rfl, rfl⟩ := opened.unique opened'
      rw [framing] at framing'
      cases framing'
  | @complete headers' after' rewritten' expected' opened' holds framing' fits applies =>
      obtain ⟨rfl, rfl⟩ := opened.unique opened'
      rw [framing] at framing'
      cases framing'
      rw [List.append_assoc] at starts
      obtain ⟨same, rest⟩ := closed_prefix (findHeadersEnd_reframe _ _ _ _) (ends _) starts
      have lengths := lengths_of_reframe named same
      have fits := rest.length_le
      rw [List.length_append, List.length_drop] at fits
      omega
  | cutShort opened' ended holds framing' short =>
      obtain ⟨rfl, rfl⟩ := opened.unique opened'
      rw [framing] at framing'
      cases framing'
      omega
  | untilClose opened' ended holds framing' =>
      obtain ⟨rfl, rfl⟩ := opened.unique opened'
      rw [framing] at framing'
      cases framing'

/-! ## What an ending delivers -/

/-- Breaking the upstream side off delivers everything exactly when nothing is held back. -/
theorem delivered_iff_of_running (execution : env.relay.Run {} events outputs (.running s))
    (opened : s.upstreamClosed = false) :
    env.Delivered (upstreamReads events) (clientBytes outputs) ↔
      s.pending = [] ∧ s.bufferingBody = false := by
  obtain ⟨effects, phase, reached, represents, client⟩ := reached_before execution
  rw [client]
  cases phase with
  | awaitingHeaders pending =>
      obtain ⟨rfl, unfound, silent, -⟩ := reached
      obtain ⟨-, -, idle, held⟩ := represents
      rw [silent, held]
      constructor
      · rintro ⟨image, applied, shown, sent⟩
        obtain ⟨rfl, -⟩ := shown.of_unfound unfound
        exact ⟨List.prefix_nil.mp sent, idle⟩
      · rintro ⟨empty, -⟩
        exact ⟨_, _, .verbatim unfound (.inl rfl), by rw [empty]⟩
  | holdingBody headers body =>
      obtain ⟨opened', -, silent, -⟩ := reached
      obtain ⟨-, -, holding, -⟩ := represents
      rw [silent, holding]
      constructor
      · rintro ⟨image, applied, shown, sent⟩
        exact absurd (List.prefix_nil.mp sent) (shown.ne_nil opened'.1)
      · rintro ⟨-, idle⟩
        cases idle
  | passingThrough =>
      obtain ⟨-, -, idle, empty⟩ := represents
      exact iff_of_true ⟨_, _, Image.close reached, List.prefix_refl _⟩ ⟨empty, idle⟩
  | ended => exact absurd (represents.1.symm.trans opened) Bool.noConfusion

/-- An ending carries out a first part of the last reaction, up to the bytes of a failing write. -/
theorem Ending.carried (ending : env.Ending events s event unsent outputs verdict) :
    ∃ before carried done, env.relay.Run {} events before (.running s) ∧
      env.relay.polls s event = true ∧ outputs = before ++ carried ∧
      (env.relay.react s event).outputs = done ++ unsent ∧
      clientBytes done <+: clientBytes carried := by
  cases ending with
  | halts execution polled reacts =>
      exact ⟨_, _, _, execution, polled, rfl, by rw [reacts, List.append_nil], List.prefix_refl _⟩
  | breaks execution polled emits io =>
      refine ⟨_, _, _, execution, polled, rfl, emits, ?_⟩
      rw [clientBytes_append]
      exact List.prefix_append _ _

theorem clientBytes_settle (reaction : RelayReaction) :
    clientBytes (settle reaction).outputs = clientBytes reaction.outputs := by
  unfold settle
  split
  · split
    · simp [Effect.toClient]
    · rfl
  · rfl

theorem FitsAtEof.front {front back : List RelayEvent} (fits : env.FitsAtEof (front ++ back)) :
    env.FitsAtEof front := by
  rintro seen rest earlier t rfl
  exact fits seen (rest ++ back) earlier t (by simp)

theorem Ending.execution (ending : env.Ending events s event unsent outputs verdict) :
    ∃ before, env.relay.Run {} events before (.running s) ∧ env.relay.polls s event = true := by
  obtain ⟨before, carried, done, execution, polled, -⟩ := ending.carried
  exact ⟨before, execution, polled⟩

/-- What the end of the upstream stream writes to the client. -/
theorem clientBytes_eof {phase : ResponsePhase} (represents : env.Represents s phase)
    (polled : env.relay.polls s .upstreamEof = true) :
    clientBytes (env.relay.react s .upstreamEof).outputs =
      clientBytes (env.phaseStep phase .eof).1 := by
  have opened : s.upstreamClosed = false := by simpa [relay] using polled
  obtain ⟨t, reacts, -⟩ := env.onUpstreamEof_follows represents opened
  rw [show env.relay.react s .upstreamEof = settle (env.onUpstreamEof s) from rfl,
    clientBytes_settle, reacts]

/-- The end of the upstream stream delivers everything when all its client writes succeed and the
held response does not run over. -/
theorem Ending.delivered_of_eof (ending : env.Ending events s .upstreamEof unsent outputs verdict)
    (kept : env.KeepsReceived events s .upstreamEof unsent) :
    env.Delivered (upstreamReads events) (clientBytes outputs) := by
  obtain ⟨before, carried, done, execution, polled, rfl, emits, sent⟩ := ending.carried
  obtain ⟨effects, phase, reached, represents, client⟩ := reached_before execution
  have all := clientBytes_eof represents polled
  rw [emits, clientBytes_append, kept.written rfl, List.append_nil] at all
  have fits := kept.fits events [] before s rfl execution
  refine ⟨_, _, reached.eof_image (represents.opened polled)
    (mt represents.runsOver_iff.mpr fits), ?_⟩
  rw [clientBytes_append, clientBytes_append, ← client, ← all]
  exact (List.prefix_append_right_inj _).mpr sent

/-- A response that runs over is not delivered, even when all client writes succeed. -/
theorem Ending.fits_of_delivered (ending : env.Ending events s .upstreamEof [] outputs verdict)
    (delivered : env.Delivered (upstreamReads events) (clientBytes outputs)) :
    ¬ env.RunsOver s := by
  obtain ⟨image, applied, shown, starts⟩ := delivered
  cases ending with
  | halts execution polled reacts =>
      obtain ⟨effects, phase, reached, represents, client⟩ := reached_before execution
      have written := clientBytes_eof represents polled
      rw [reacts] at written
      rw [represents.runsOver_iff]
      intro overruns
      cases phase with
      | holdingBody headers body =>
          obtain ⟨expected, framing, exceeds, applies⟩ := overruns
          obtain ⟨rewritten, applies⟩ := Option.isSome_iff_exists.mp applies
          obtain ⟨opened, holds, silent, -⟩ := reached
          rw [clientBytes_append, client, silent, List.nil_append, written,
            clientBytes_eof_of_rewriting (by simp [framing]) applies] at starts
          exact not_image_of_overrun opened framing exceeds shown starts
      | awaitingHeaders pending => exact overruns
      | passingThrough => exact overruns
      | ended => exact overruns

/-- The end of the upstream stream comes once. -/
theorem fitsAtEof_of_eof {before : List Effect}
    (execution : env.relay.Run {} events before (.running s))
    (polled : env.relay.polls s .upstreamEof = true) (fits : ¬ env.RunsOver s) :
    env.FitsAtEof (events ++ [.upstreamEof]) := by
  have unended := eof_not_mem_of_open execution (by simpa [relay] using polled)
  intro front rest earlier t cut first
  rcases List.eq_nil_or_concat' rest with rfl | ⟨rest, last, rfl⟩
  · obtain ⟨rfl, -⟩ := List.append_inj' cut rfl
    obtain ⟨-, same⟩ := execution.unique first
    cases same
    exact fits
  · rw [← List.cons_append, ← List.append_assoc] at cut
    obtain ⟨rfl, -⟩ := List.append_inj' cut rfl
    exact absurd (by simp) unended

theorem fitsAtEof_of_error {before : List Effect} {error : IoError}
    (execution : env.relay.Run {} events before (.running s))
    (polled : env.relay.polls s (.upstreamError error) = true) :
    env.FitsAtEof (events ++ [.upstreamError error]) := by
  have unended := eof_not_mem_of_open execution (by simpa [relay] using polled)
  intro front rest earlier t cut first
  have mem : .upstreamEof ∈ events ++ [.upstreamError error] := by rw [cut]; simp
  exact absurd mem (by simpa using unended)

/-- Behind the end of the upstream stream everything has been delivered. -/
theorem Ending.delivered_of_ended (ending : env.Ending events s event unsent outputs verdict)
    (ended : .upstreamEof ∈ events) (fits : env.FitsAtEof events) :
    env.Delivered (upstreamReads (events ++ [event])) (clientBytes outputs) := by
  obtain ⟨before, carried, done, execution, polled, rfl, -⟩ := ending.carried
  obtain ⟨shown, client, image⟩ := image_of_run execution ended fits
  have running := (run_report execution env.represents_initial).running s rfl
  rw [blockedReply_of_unblocked running.2.2.2, List.append_nil] at client
  have silent : event.received = [] := by
    have closed := (reached_of_run execution).2.mpr ended
    cases event with
    | upstreamRead chunk => exact absurd closed (running.1.opened polled)
    | _ => rfl
  have reads : upstreamReads (events ++ [event]) = upstreamReads events := by
    simp [upstreamReads, silent]
  rw [reads]
  refine ⟨_, _, image, ?_⟩
  rw [clientBytes_append, client]
  exact List.prefix_append _ _

/-- A peer that closes its connection without saying goodbye. -/
def missingCloseNotify : IoError where
  kind := .unexpectedEof
  message := ascii "peer closed connection without sending TLS close_notify"

/-- A page of which only the first bytes arrive. -/
def brokenPageEvents : List RelayEvent :=
  [.upstreamRead
    ⟨ascii "HTTP/1.1 200 OK\r\nContent-Type: text/html\r\n\r\n<p>", by decide, by decide⟩]

theorem brokenPage_run :
    ∃ s, (pageTunnel .enforce).Ending brokenPageEvents s (.upstreamError missingCloseNotify) [] []
      (.failed missingCloseNotify) ∧ s.bufferingBody = true := by
  have executes : ((pageTunnel .enforce).relay.run {} brokenPageEvents).map (fun reaction =>
      (reaction.outputs,
        reaction.status.state?.map fun t => (t.bufferingBody, t.upstreamClosed))) =
      some ([], some (true, false)) := by
    decide +kernel
  obtain ⟨outputs, status, execution, observed⟩ := Machine.exists_run _ _ _ _ executes
  obtain ⟨silent, reached⟩ := Prod.mk.inj observed
  obtain ⟨s, goes_on, state⟩ := Option.map_eq_some_iff.mp reached
  obtain rfl := Status.eq_running goes_on
  obtain ⟨holding, opened⟩ := Prod.mk.inj state
  have polled : (pageTunnel .enforce).relay.polls s (.upstreamError missingCloseNotify) = true := by
    simpa [relay] using opened
  have ending := Ending.halts execution polled rfl
  rw [List.append_nil, show outputs = [] from silent] at ending
  exact ⟨s, ending, holding⟩

end RelayEnv

end PrivacyEngine
