import PrivacyEngine.Mitm.Response

/-!
# Runs of the relay

The request side of the relay is independent of the response side: the first client read is
filtered or answered, the others are forwarded as they are.  Together with the phases of the
response side this describes every run: what is written to either peer depends only on the client
reads and on the upstream inputs, not on how they interleave.
-/

namespace PrivacyEngine

open Wire Reactive

namespace RelayEvent

/-- The upstream input an event carries. -/
def upstream : RelayEvent → List UpstreamInput
  | .upstreamRead chunk => [.read chunk.bytes]
  | .upstreamEof => [.eof]
  | _ => []

/-- The bytes an event receives from upstream. -/
def received : RelayEvent → List Bytes
  | .upstreamRead chunk => [chunk.bytes]
  | _ => []

/-- The bytes an event receives from the client. -/
def request : RelayEvent → List Bytes
  | .clientRead chunk => [chunk.bytes]
  | _ => []

end RelayEvent

/-- Upstream inputs of a sequence of events. -/
def upstreamInputs (events : List RelayEvent) : List UpstreamInput :=
  events.flatMap RelayEvent.upstream

/-- Upstream reads of a sequence of events. -/
def upstreamReads (events : List RelayEvent) : List Bytes := events.flatMap RelayEvent.received

/-- Client reads of a sequence of events. -/
def clientReads (events : List RelayEvent) : List Bytes := events.flatMap RelayEvent.request

@[simp] theorem upstreamInputs_nil : upstreamInputs [] = [] := rfl

@[simp] theorem upstreamInputs_cons (event : RelayEvent) (events : List RelayEvent) :
    upstreamInputs (event :: events) = event.upstream ++ upstreamInputs events := rfl

@[simp] theorem upstreamReads_nil : upstreamReads [] = [] := rfl

@[simp] theorem upstreamReads_cons (event : RelayEvent) (events : List RelayEvent) :
    upstreamReads (event :: events) = event.received ++ upstreamReads events := rfl

@[simp] theorem clientReads_nil : clientReads [] = [] := rfl

@[simp] theorem clientReads_cons (event : RelayEvent) (events : List RelayEvent) :
    clientReads (event :: events) = event.request ++ clientReads events := rfl

namespace RelayEnv

variable (env : RelayEnv)

/-! ## The request side -/

/-- What is forwarded for client reads, given whether the first request has been seen. -/
def requestOutput : Bool → List Bytes → Bytes
  | false, first :: reads => (env.filterRequest first).1.getD first ++ reads.flatten
  | _, reads => reads.flatten

/-- Whether the first of the client reads is answered with 403. -/
def blocksFirst (checked : Bool) (reads : List Bytes) : Bool :=
  !checked && reads.head?.any env.blocksWebsocket

@[simp] theorem requestOutput_nil (checked : Bool) : env.requestOutput checked [] = [] := by
  cases checked <;> rfl

@[simp] theorem requestOutput_checked (reads : List Bytes) :
    env.requestOutput true reads = reads.flatten := by
  cases reads <;> rfl

theorem requestOutput_append (checked : Bool) (left right : List Bytes) :
    env.requestOutput checked (left ++ right) =
      env.requestOutput checked left ++ env.requestOutput (checked || !left.isEmpty) right := by
  cases checked with
  | true => simp
  | false =>
      cases left with
      | nil => simp
      | cons first left => simp [requestOutput]

@[simp] theorem blocksFirst_nil (checked : Bool) : env.blocksFirst checked [] = false := by
  simp [blocksFirst]

theorem blocksFirst_append (checked : Bool) (left right : List Bytes) :
    env.blocksFirst checked (left ++ right) =
      (env.blocksFirst checked left || env.blocksFirst (checked || !left.isEmpty) right) := by
  cases checked with
  | true => simp [blocksFirst]
  | false =>
      cases left with
      | nil => simp
      | cons first left => simp [blocksFirst]

theorem bookkeeping_filterStep {buf : Bytes} {enabled : Bool} {filter : Bytes → Option Bytes}
    {event : LogEvent} {entry : Receipt} {counter : Metric} {before : Option Bytes × List Effect}
    (reports : (Effect.log event).isBookkeeping = true) (kept : Bookkeeping before.2) :
    Bookkeeping (env.filterStep buf enabled filter event entry counter before).2 := by
  unfold filterStep
  split
  · refine List.forall_mem_append.mpr ⟨List.forall_mem_append.mpr ⟨kept, ?_⟩, ?_⟩
    · exact List.forall_mem_cons.mpr ⟨reports, env.bookkeeping_record entry⟩
    · exact List.forall_mem_singleton.mpr rfl
  · exact kept

theorem bookkeeping_filterRequest (buf : Bytes) : Bookkeeping (env.filterRequest buf).2 := by
  refine env.bookkeeping_filterStep rfl ?_
  refine env.bookkeeping_filterStep rfl ?_
  refine env.bookkeeping_filterStep rfl ?_
  exact List.forall_mem_nil _

/-- The log of an applied user profile. -/
theorem bookkeeping_profile (name : Option Str) :
    Bookkeeping (name.toList.map fun name => Effect.log (.userProfileApplied name)) := by
  intro effect mem
  obtain ⟨name, -, rfl⟩ := List.mem_map.mp mem
  rfl

/-! ## What a run shows -/

/-- Reply sent to the client by the relay itself. -/
def blockedReply (outputs : List Effect) : Bytes :=
  if websocketBlocked outputs then websocketBlockedResponse else []

/-- Observations of a run that starts in a state and a phase. -/
structure Report (s : RelayState) (phase : ResponsePhase) (events : List RelayEvent)
    (outputs : List Effect) (status : Status RelayState RelayVerdict) : Prop where
  safe : status ≠ .halted .panicked
  client : clientBytes outputs =
    clientBytes (env.phaseRun phase (upstreamInputs events)).1 ++ blockedReply outputs
  rewrites : rewriteApplied outputs =
    rewriteApplied (env.phaseRun phase (upstreamInputs events)).1
  blocked : websocketBlocked outputs =
    env.blocksFirst s.firstRequestChecked (clientReads events)
  upstream : upstreamBytes outputs =
    if websocketBlocked outputs then []
    else env.requestOutput s.firstRequestChecked (clientReads events)
  running : ∀ t, status = .running t →
    env.Represents t (env.phaseRun phase (upstreamInputs events)).2 ∧
      t.firstRequestChecked = (s.firstRequestChecked || !(clientReads events).isEmpty) ∧
      t.clientClosed = (s.clientClosed || events.contains .clientEof) ∧
      websocketBlocked outputs = false
  returned : status = .halted .returned → websocketBlocked outputs = false →
    (s.clientClosed || events.contains .clientEof) = true ∧
      (env.phaseRun phase (upstreamInputs events)).2 = .ended
  failed : ∀ error, status = .halted (.failed error) →
    .clientError error ∈ events ∨ .upstreamError error ∈ events

variable {env} {s t : RelayState} {phase : ResponsePhase}

theorem Report.stop (represents : env.Represents s phase) :
    env.Report s phase [] [] (.running s) where
  safe := by simp
  client := rfl
  rewrites := rfl
  blocked := by simp
  upstream := by simp
  running := by
    rintro _ ⟨⟩
    exact ⟨represents, by simp, by simp, rfl⟩
  returned := by simp
  failed := by simp

/-- The report of an event and the report of the run behind it. -/
theorem Report.append {event : RelayEvent} {events : List RelayEvent} {outputs later : List Effect}
    {status : Status RelayState RelayVerdict}
    (first : env.Report s phase [event] outputs (.running t))
    (rest : env.Report t (env.phaseRun phase (upstreamInputs [event])).2 events later status) :
    env.Report s phase (event :: events) (outputs ++ later) status := by
  obtain ⟨-, checked, closed, unblocked⟩ := first.running t rfl
  have inputs : upstreamInputs (event :: events) =
    upstreamInputs [event] ++ upstreamInputs events := by
    simp
  have reads : clientReads (event :: events) = clientReads [event] ++ clientReads events := by
    simp
  have eof : (event :: events).contains RelayEvent.clientEof =
      ([event].contains .clientEof || events.contains .clientEof) := by
    simp
  have blocked_eq : websocketBlocked (outputs ++ later) = websocketBlocked later := by
    simp [unblocked]
  have before := first.blocked
  rw [unblocked] at before
  constructor
  case safe => exact rest.safe
  case client =>
    rw [inputs, phaseRun_append, clientBytes_append, first.client, rest.client]
    simp [blockedReply, unblocked]
  case rewrites =>
    rw [inputs, phaseRun_append, rewriteApplied_append, first.rewrites, rest.rewrites]
    simp
  case blocked =>
    rw [blocked_eq, rest.blocked, reads, blocksFirst_append, ← before, checked, Bool.false_or]
  case upstream =>
    rw [blocked_eq, upstreamBytes_append, first.upstream, rest.upstream, unblocked, reads,
      requestOutput_append, checked]
    by_cases later_blocked : websocketBlocked later = true
    · have first_read := rest.blocked
      rw [later_blocked, blocksFirst] at first_read
      have unchecked : t.firstRequestChecked = false := by
        simpa using (Bool.and_eq_true_iff.mp first_read.symm).1
      rw [checked, Bool.or_eq_false_iff] at unchecked
      have empty : clientReads [event] = [] := by simpa using unchecked.2
      simp [later_blocked, empty]
    · simp [later_blocked]
  case running =>
    intro final final_eq
    obtain ⟨represents, final_checked, final_closed, final_unblocked⟩ := rest.running final final_eq
    rw [inputs, phaseRun_append, reads, eof]
    refine ⟨represents, ?_, ?_, ?_⟩
    · rw [final_checked, checked, Bool.or_assoc]
      cases clientReads [event] <;> simp
    · rw [final_closed, closed, Bool.or_assoc]
    · rw [blocked_eq, final_unblocked]
  case returned =>
    intro final_eq final_unblocked
    rw [blocked_eq] at final_unblocked
    have ended := rest.returned final_eq final_unblocked
    rw [inputs, phaseRun_append, eof, ← Bool.or_assoc, ← closed]
    exact ended
  case failed =>
    intro error error_eq
    exact (rest.failed error error_eq).imp (List.mem_cons_of_mem _) (List.mem_cons_of_mem _)

theorem Represents.closed_iff (represents : env.Represents s phase) :
    s.upstreamClosed = true ↔ phase = .ended := by
  cases phase with
  | ended => exact iff_of_true represents.1 rfl
  | awaitingHeaders pending => simp [represents.1]
  | holdingBody headers body => simp [represents.1]
  | passingThrough => simp [represents.1]

/-- Leaving the loop behind an event keeps its report. -/
theorem Report.settle {events : List RelayEvent} {reaction : RelayReaction}
    (report : env.Report s phase events reaction.outputs reaction.status) :
    env.Report s phase events (settle reaction).outputs (settle reaction).status := by
  obtain ⟨outputs, status⟩ := reaction
  cases status with
  | halted verdict => exact report
  | running t =>
      obtain ⟨represents, checked, closed, unblocked⟩ := report.running t rfl
      unfold RelayEnv.settle
      dsimp only
      split
      · rename_i both_closed
        rw [Bool.and_eq_true] at both_closed
        have same : websocketBlocked (outputs ++
            [.log (.mitmHttp1Relay t.clientToServerBytes t.serverToClientBytes)]) =
            websocketBlocked outputs := by
          simp [Effect.isWebsocketBlock]
        constructor
        case safe => simp
        case client => simpa [blockedReply, same, Effect.toClient] using report.client
        case rewrites => simpa [Effect.isAppliedRewrite] using report.rewrites
        case blocked => rw [same, report.blocked]
        case upstream => simpa [same, Effect.toUpstream] using report.upstream
        case running => simp
        case returned =>
          intro _ _
          exact ⟨closed ▸ both_closed.1, represents.closed_iff.mp both_closed.2⟩
        case failed => simp
      · exact report

/-- A reaction that follows a phase reaction is reported by it. -/
theorem Follows.report {reaction : RelayReaction} {input : UpstreamInput}
    (follows : env.Follows s reaction (env.phaseStep phase input)) (event : RelayEvent)
    (carries : event.upstream = [input]) (silent : event.request = [])
    (other : event ≠ .clientEof) :
    env.Report s phase [event] reaction.outputs reaction.status := by
  obtain ⟨t, rfl, represents, closed, checked⟩ := follows
  have inputs : upstreamInputs [event] = [input] := by simp [carries]
  have reads : clientReads [event] = [] := by simp [silent]
  have side := (env.responding_phaseStep phase input).responseSide
  have unblocked := websocketBlocked_of_responseSide side
  constructor
  case safe => simp
  case client => simp [inputs, phaseRun, blockedReply, unblocked]
  case rewrites => simp [inputs, phaseRun]
  case blocked => simp [reads, unblocked]
  case upstream => simp [reads, unblocked, upstreamBytes_of_responseSide side]
  case running =>
    rintro _ ⟨⟩
    refine ⟨by simpa [inputs, phaseRun] using represents, by simpa [reads] using checked, ?_,
      unblocked⟩
    simpa [Ne.symm other] using closed
  case returned => simp
  case failed => simp

theorem onClientRead_report (represents : env.Represents s phase) (chunk : ReadChunk) :
    env.Report s phase [.clientRead chunk] (env.onClientRead s chunk.bytes).outputs
      (env.onClientRead s chunk.bytes).status := by
  have inputs : upstreamInputs [.clientRead chunk] = [] := rfl
  have reads : clientReads [.clientRead chunk] = [chunk.bytes] := rfl
  have profile := bookkeeping_profile env.sessionPlan.userProfileName
  unfold onClientRead
  split
  · rename_i checked
    constructor <;> simp [forward, inputs, reads, phaseRun, blockedReply, checked, blocksFirst,
      Effect.toClient, Effect.toUpstream, Effect.isAppliedRewrite, Effect.isWebsocketBlock]
    simpa [checked] using represents.client s.clientClosed s.firstRequestChecked _
  · rename_i unchecked
    rw [Bool.not_eq_true] at unchecked
    dsimp only
    split
    · rename_i blocks
      have recorded := env.bookkeeping_record .websocketBlocked
      constructor <;> simp [inputs, reads, phaseRun, blockedReply, unchecked, blocksFirst, blocks,
        Effect.toClient, Effect.toUpstream, Effect.isAppliedRewrite, Effect.isWebsocketBlock,
        clientBytes_of_bookkeeping profile, upstreamBytes_of_bookkeeping profile,
        rewriteApplied_of_bookkeeping profile, clientBytes_of_bookkeeping recorded,
        upstreamBytes_of_bookkeeping recorded, rewriteApplied_of_bookkeeping recorded]
    · rename_i passes
      have filtered := env.bookkeeping_filterRequest chunk.bytes
      constructor <;> simp [forward, inputs, reads, phaseRun, blockedReply, unchecked, blocksFirst,
        passes, requestOutput, Effect.toClient, Effect.toUpstream, Effect.isAppliedRewrite,
        Effect.isWebsocketBlock, clientBytes_of_bookkeeping profile,
        upstreamBytes_of_bookkeeping profile, rewriteApplied_of_bookkeeping profile,
        websocketBlocked_of_bookkeeping profile, clientBytes_of_bookkeeping filtered,
        upstreamBytes_of_bookkeeping filtered, rewriteApplied_of_bookkeeping filtered,
        websocketBlocked_of_bookkeeping filtered]
      exact represents.client s.clientClosed true _

theorem onClientEof_report (represents : env.Represents s phase) :
    env.Report s phase [.clientEof] (onClientEof s).outputs (onClientEof s).status := by
  constructor <;> simp [onClientEof, RelayEvent.upstream, RelayEvent.request, phaseRun,
    blockedReply, Effect.toClient, Effect.toUpstream, Effect.isAppliedRewrite,
    Effect.isWebsocketBlock]
  exact represents.client true s.firstRequestChecked s.clientToServerBytes

theorem Report.error (event : RelayEvent) (error : IoError)
    (fails : event = .clientError error ∨ event = .upstreamError error) :
    env.Report s phase [event] [] (.halted (.failed error)) := by
  rcases fails with rfl | rfl <;>
    constructor <;> simp [RelayEvent.upstream, RelayEvent.request, phaseRun, blockedReply]

/-- One reaction of the relay is reported by the phase it is in. -/
theorem react_report (represents : env.Represents s phase) {event : RelayEvent}
    (polled : env.relay.polls s event = true) :
    env.Report s phase [event] (env.relay.react s event).outputs
      (env.relay.react s event).status := by
  cases event with
  | clientRead chunk => exact (onClientRead_report represents chunk).settle
  | clientEof => exact (onClientEof_report represents).settle
  | clientError error => exact .error _ error (.inl rfl)
  | upstreamRead chunk =>
      have opened : s.upstreamClosed = false := by simpa [relay] using polled
      have follows := env.onUpstreamRead_follows represents opened chunk.bytes
      exact (follows.report (.upstreamRead chunk) rfl rfl nofun).settle
  | upstreamEof =>
      have opened : s.upstreamClosed = false := by simpa [relay] using polled
      have follows := env.onUpstreamEof_follows represents opened
      exact (follows.report .upstreamEof rfl rfl nofun).settle
  | upstreamError error => exact .error _ error (.inr rfl)

/-- Every run of the relay is reported by the phase it starts in. -/
theorem run_report {events : List RelayEvent} {outputs : List Effect}
    {status : Status RelayState RelayVerdict} (execution : env.relay.Run s events outputs status)
    (represents : env.Represents s phase) : env.Report s phase events outputs status := by
  induction execution generalizing phase with
  | stop state => exact .stop represents
  | step polled reacts _ ih =>
      have first := react_report represents polled
      rw [reacts] at first
      exact first.append (ih (first.running _ rfl).1)
  | halt polled reacts =>
      have last := react_report represents polled
      rwa [reacts] at last

/-! ## Shape of the upstream inputs -/

/-- A state that polls the upstream side is in an open phase. -/
theorem Represents.opened (represents : env.Represents s phase)
    (polled : (!s.upstreamClosed) = true) :
    phase ≠ .ended := by
  intro ended
  rw [represents.closed_iff.mpr ended] at polled
  cases polled

/-- The upstream inputs of a run are its reads, and the end of the stream behind them when it is
reached. -/
theorem upstreamInputs_of_run {events : List RelayEvent} {outputs : List Effect}
    {status : Status RelayState RelayVerdict} (execution : env.relay.Run s events outputs status)
    (represents : env.Represents s phase) :
    (phase = .ended → upstreamInputs events = []) ∧
      upstreamInputs events = (upstreamReads events).map .read ++
        if .upstreamEof ∈ events then [.eof] else [] := by
  induction execution generalizing phase with
  | stop state => simp
  | @step state next event events outputs later status polled reacts _ ih =>
      have first := react_report represents polled
      rw [reacts] at first
      have represents' := (first.running _ rfl).1
      obtain ⟨closed, shape⟩ := ih represents'
      cases event with
      | upstreamRead chunk =>
          have opened : phase ≠ .ended := represents.opened polled
          refine ⟨fun ended => absurd ended opened, ?_⟩
          simp [RelayEvent.upstream, RelayEvent.received, shape]
      | upstreamEof =>
          have opened : phase ≠ .ended := represents.opened polled
          have ended : (env.phaseRun phase (upstreamInputs [.upstreamEof])).2 = .ended := by
            cases phase <;> rfl
          have no_more := closed ended
          have no_reads : upstreamReads events = [] := by
            rw [no_more] at shape
            simpa using (List.append_eq_nil_iff.mp shape.symm).1
          refine ⟨fun ended => absurd ended opened, ?_⟩
          simp [RelayEvent.upstream, RelayEvent.received, no_more, no_reads]
      | _ => exact ⟨fun ended => closed (by simpa [RelayEvent.upstream, phaseRun] using ended),
          by simpa [RelayEvent.upstream, RelayEvent.received] using shape⟩
  | @halt state event outputs verdict polled reacts =>
      cases event with
      | upstreamRead chunk =>
          have opened : phase ≠ .ended := represents.opened polled
          exact ⟨fun ended => absurd ended opened,
            by simp [RelayEvent.upstream, RelayEvent.received]⟩
      | upstreamEof =>
          have opened : phase ≠ .ended := represents.opened polled
          exact ⟨fun ended => absurd ended opened,
            by simp [RelayEvent.upstream, RelayEvent.received]⟩
      | _ => exact ⟨fun _ => rfl, by simp [RelayEvent.upstream, RelayEvent.received]⟩

end RelayEnv

/-! ## Sample tunnels -/

/-- The codec on a body without content coding and without elements to remove. -/
def plainCodec : BodyCodec where
  decompress body _ := .ok body
  compress body _ := .ok body
  rewriteHtmlBody body _ := .ok (body, ⟨0, 0, 0, 0⟩)

/-- A tunnel to a host under a configuration. -/
def sampleTunnel (cfg : PolicyConfig) (host : Str) : RelayEnv where
  policyEngine := { cfg }
  targetHost := host
  sourceIp := none
  receiptsStore := true
  codec := plainCodec

def trackerHost : Str := ascii "doubleclick.net"

def plainHost : Str := ascii "example.org"

/-- A configuration that removes tracking pixels from pages. -/
def pixelConfig (mode : PolicyMode) (maxBodyBytes : Nat) : PolicyConfig :=
  { PolicyConfig.defaultForMode mode with
    bodyRewrite := { enabled := true, stripTrackingPixels := true, maxBodyBytes } }

/-- A tunnel that rewrites pages of at most 1000 bytes. -/
def pageTunnel (mode : PolicyMode) : RelayEnv := sampleTunnel (pixelConfig mode 1000) plainHost

end PrivacyEngine
