import PrivacyEngine.Mitm.Session

/-!
# The byte account of a relay

Each direction of a tunnel carries writes and then at most one half-close.  The two counters of the
relay loop are the lengths of what has been written, in every state the loop reaches and in the
entry it logs when it ends.  Only the 403 answer to a WebSocket upgrade is written outside of this
account, and it may come behind the half-close.  What the relay holds back of the upstream stream is
always its end, and bounded by the header limit and the configured body limit.
-/

namespace PrivacyEngine

open Wire Reactive

namespace Effect

/-- Effects on the connection to the upstream server. -/
def isUpstreamOp : Effect → Bool
  | writeUpstream _ | shutdownUpstream => true
  | _ => false

/-- Effects on the connection to the client. -/
def isClientOp : Effect → Bool
  | writeClient _ | shutdownClient => true
  | _ => false

end Effect

/-- What a trace does to the upstream connection. -/
def upstreamOps (effects : List Effect) : List Effect := effects.filter Effect.isUpstreamOp

/-- What a trace does to the client connection. -/
def clientOps (effects : List Effect) : List Effect := effects.filter Effect.isClientOp

@[simp] theorem upstreamOps_append (left right : List Effect) :
    upstreamOps (left ++ right) = upstreamOps left ++ upstreamOps right := List.filter_append ..

@[simp] theorem clientOps_append (left right : List Effect) :
    clientOps (left ++ right) = clientOps left ++ clientOps right := List.filter_append ..

@[simp] theorem clientOps_writes (parts : List Bytes) :
    clientOps (parts.map Effect.writeClient) = parts.map Effect.writeClient := by
  apply List.filter_eq_self.mpr
  intro effect mem
  obtain ⟨part, -, rfl⟩ := List.mem_map.mp mem
  rfl

theorem upstreamOps_of_responseSide {effects : List Effect} (side : ResponseSide effects) :
    upstreamOps effects = [] := by
  apply List.filter_eq_nil_iff.mpr
  intro effect mem
  have kept := side effect mem
  cases effect <;> first | exact Bool.false_ne_true | cases kept

/-- Counters, receipts and log events. -/
def Effect.isReport : Effect → Bool
  | metric _ | receipt _ _ | log _ => true
  | _ => false

/-- Nothing in the trace touches a connection. -/
abbrev Reports (effects : List Effect) : Prop := ∀ effect ∈ effects, effect.isReport = true

section Reports

variable {effects : List Effect} (reports : Reports effects)

include reports

theorem upstreamOps_of_reports : upstreamOps effects = [] := by
  apply List.filter_eq_nil_iff.mpr
  intro effect mem
  have kept := reports effect mem
  cases effect <;> first | exact Bool.false_ne_true | cases kept

theorem clientOps_of_reports : clientOps effects = [] := by
  apply List.filter_eq_nil_iff.mpr
  intro effect mem
  have kept := reports effect mem
  cases effect <;> first | exact Bool.false_ne_true | cases kept

end Reports

theorem Bookkeeping.reports {effects : List Effect} (bookkeeping : Bookkeeping effects) :
    Reports effects := by
  intro effect mem
  have kept := bookkeeping effect mem
  cases effect <;> first | rfl | cases kept

/-- The half-close of a direction, when there is one. -/
def halfClose (closes : Bool) (shutdown : Effect) : List Effect := if closes then [shutdown] else []

namespace RelayEnv

variable (env : RelayEnv)

/-- The loop body without its end: what handling one event does. -/
def handle (s : RelayState) : RelayEvent → RelayReaction
  | .clientRead chunk => env.onClientRead s chunk.bytes
  | .clientEof => onClientEof s
  | .clientError error | .upstreamError error => ⟨[], .halted (.failed error)⟩
  | .upstreamRead chunk => env.onUpstreamRead s chunk.bytes
  | .upstreamEof => env.onUpstreamEof s

theorem react_eq_settle (s : RelayState) (event : RelayEvent) :
    env.relay.react s event = settle (env.handle s event) := by
  cases event <;> rfl

/-! ## What one reaction adds -/

/-- A reaction writes the given parts and counts them, and closes a direction at the end of the
other peer's stream. -/
structure Adds (s : RelayState) (event : RelayEvent) (outputs : List Effect) (t : RelayState)
    (requests parts : List Bytes) : Prop where
  toServer : t.clientToServerBytes = s.clientToServerBytes + requests.flatten.length
  toClient : t.serverToClientBytes = s.serverToClientBytes + parts.flatten.length
  upstream : upstreamOps outputs =
    requests.map .writeUpstream ++ halfClose (event == .clientEof) .shutdownUpstream
  client : clientOps outputs =
    parts.map .writeClient ++ halfClose (event == .upstreamEof) .shutdownClient
  clientClosed : t.clientClosed = (s.clientClosed || event == .clientEof)
  upstreamClosed : t.upstreamClosed = (s.upstreamClosed || event == .upstreamEof)
  requestSide : requests ≠ [] → ∃ chunk, event = .clientRead chunk
  responseSide : parts ≠ [] → event.upstream ≠ []

variable {env} {s t : RelayState} {outputs : List Effect}

/-- Two states count the same and have the same directions closed. -/
def SameAccount (s t : RelayState) : Prop :=
  t.clientToServerBytes = s.clientToServerBytes ∧ t.serverToClientBytes = s.serverToClientBytes ∧
    t.clientClosed = s.clientClosed ∧ t.upstreamClosed = s.upstreamClosed

/-- Handling a read silently only keeps books. -/
theorem adds_silent (chunk : ReadChunk) (same : SameAccount s t)
    (reports : Reports outputs) : Adds s (.upstreamRead chunk) outputs t [] [] where
  toServer := same.1
  toClient := same.2.1
  upstream := upstreamOps_of_reports reports
  client := clientOps_of_reports reports
  clientClosed := by simp [same.2.2.1]
  upstreamClosed := by simp [same.2.2.2]
  requestSide := absurd rfl
  responseSide := absurd rfl

theorem upstreamOps_writes (parts : List Bytes) :
    upstreamOps (parts.map Effect.writeClient) = [] := by
  apply upstreamOps_of_responseSide
  intro effect mem
  obtain ⟨part, -, rfl⟩ := List.mem_map.mp mem
  rfl

/-- Handling a read by replying counts the reply. -/
theorem adds_reply {chunk : ReadChunk} {effects : List Effect} {parts : List Bytes}
    {next : RelayState} (replies : t.reply effects parts = ⟨outputs, .running next⟩)
    (same : SameAccount s t) (reports : Reports effects) :
    Adds s (.upstreamRead chunk) outputs next [] parts := by
  cases replies
  obtain ⟨toServer, toClient, clientClosed, upstreamClosed⟩ := same
  constructor
  case toServer => exact toServer
  case toClient => rw [toClient, List.length_flatten]
  case upstream =>
    rw [upstreamOps_append, upstreamOps_of_reports reports, upstreamOps_writes]
    rfl
  case client =>
    rw [clientOps_append, clientOps_of_reports reports, clientOps_writes]
    exact (List.append_nil _).symm
  case clientClosed => simp [clientClosed]
  case upstreamClosed => simp [upstreamClosed]
  case requestSide => exact absurd rfl
  case responseSide => simp [RelayEvent.upstream]

theorem reports_attempt (body : Bytes) (plan : BodyRewritePlan) (encoding : Option Str) :
    Reports (env.attemptBodyRewrite body plan encoding).2 := by
  have recorded : ∀ entry, Reports (env.record entry) :=
    fun entry => (env.bookkeeping_record entry).reports
  have skipped : Reports env.recordSkipped := env.bookkeeping_recordSkipped.reports
  have logged : ∀ event, Reports [.log event] := fun event => List.forall_mem_singleton.mpr rfl
  unfold attemptBodyRewrite
  split
  · exact List.forall_mem_cons.mpr ⟨rfl, skipped⟩
  · split
    · exact List.forall_mem_append.mpr ⟨skipped, logged _⟩
    · split
      · exact List.forall_mem_append.mpr ⟨List.forall_mem_cons.mpr ⟨rfl, recorded _⟩, logged _⟩
      · split
        · exact List.forall_mem_cons.mpr ⟨rfl, skipped⟩
        · exact List.forall_mem_append.mpr ⟨List.forall_mem_cons.mpr ⟨rfl, recorded _⟩, logged _⟩

theorem onHeaderBytes_adds (chunk : ReadChunk)
    (reacts : env.onHeaderBytes s chunk.bytes = ⟨outputs, .running t⟩) :
    ∃ parts, Adds s (.upstreamRead chunk) outputs t [] parts := by
  have headers : ∀ block, Reports (env.headerEffects block) :=
    fun block => (env.bookkeeping_headerEffects block).reports
  have skipped : Reports env.recordSkipped := env.bookkeeping_recordSkipped.reports
  unfold onHeaderBytes at reacts
  dsimp only at reacts
  split at reacts
  · exact ⟨_, adds_reply reacts ⟨rfl, rfl, rfl, rfl⟩ (List.forall_mem_singleton.mpr rfl)⟩
  · split at reacts
    · cases reacts
      exact ⟨[], adds_silent chunk ⟨rfl, rfl, rfl, rfl⟩ (List.forall_mem_nil _)⟩
    · split at reacts
      · split at reacts
        · split at reacts
          · exact ⟨_, adds_reply reacts ⟨rfl, rfl, rfl, rfl⟩
              (List.forall_mem_append.mpr ⟨headers _, skipped⟩)⟩
          · cases reacts
            exact ⟨[], adds_silent chunk ⟨rfl, rfl, rfl, rfl⟩ (headers _)⟩
        · exact ⟨_, adds_reply reacts ⟨rfl, rfl, rfl, rfl⟩ (headers _)⟩
      · cases reacts

theorem onBodyBytes_adds (chunk : ReadChunk)
    (reacts : env.onBodyBytes s chunk.bytes = ⟨outputs, .running t⟩) :
    ∃ parts, Adds s (.upstreamRead chunk) outputs t [] parts := by
  have skipped : Reports env.recordSkipped := env.bookkeeping_recordSkipped.reports
  cases planned : s.bodyRewritePlan with
  | none =>
      rw [onBodyBytes, planned] at reacts
      cases reacts
  | some plan =>
      simp only [onBodyBytes, planned] at reacts
      generalize (if s.bufferingChunked &&
        !decide (plan.maxBodyBytes ≤ (s.bodyBuffer ++ chunk.bytes).length) then
          tryDecodeChunkedMessage (s.bodyBuffer ++ chunk.bytes) else none) = chunkedParsed at reacts
      split at reacts
      · exact ⟨_, adds_reply reacts ⟨rfl, rfl, rfl, rfl⟩
          (List.forall_mem_append.mpr ⟨skipped, List.forall_mem_singleton.mpr rfl⟩)⟩
      · split at reacts
        · split at reacts
          · cases reacts
          · exact ⟨_, adds_reply reacts ⟨rfl, rfl, rfl, rfl⟩ (reports_attempt _ _ _)⟩
        · split at reacts
          · split at reacts
            · cases reacts
            · split at reacts
              · exact ⟨_, adds_reply reacts ⟨rfl, rfl, rfl, rfl⟩ (reports_attempt _ _ _)⟩
              · cases reacts
          · cases reacts
            exact ⟨[], adds_silent chunk ⟨rfl, rfl, rfl, rfl⟩ (List.forall_mem_nil _)⟩

theorem onUpstreamRead_adds (chunk : ReadChunk)
    (reacts : env.onUpstreamRead s chunk.bytes = ⟨outputs, .running t⟩) :
    ∃ parts, Adds s (.upstreamRead chunk) outputs t [] parts := by
  unfold onUpstreamRead at reacts
  split at reacts
  · exact onBodyBytes_adds chunk reacts
  · split at reacts
    · exact ⟨_, adds_reply reacts ⟨rfl, rfl, rfl, rfl⟩ (List.forall_mem_nil _)⟩
    · exact onHeaderBytes_adds chunk reacts

theorem onUpstreamEof_adds (reacts : env.onUpstreamEof s = ⟨outputs, .running t⟩) :
    ∃ parts, Adds s .upstreamEof outputs t [] parts := by
  have flushes : ∀ {effects : List Effect} {parts : List Bytes} {next : RelayState},
      next.clientToServerBytes = s.clientToServerBytes →
      next.serverToClientBytes = s.serverToClientBytes → next.clientClosed = s.clientClosed →
      next.upstreamClosed = true → Reports effects →
      Adds s .upstreamEof
        ((nonEmptyPart s.pending).map .writeClient ++ effects ++ parts.map .writeClient ++
          [.shutdownClient])
        { next with
          serverToClientBytes :=
            next.serverToClientBytes + ((nonEmptyPart s.pending ++ parts).map List.length).sum }
        [] (nonEmptyPart s.pending ++ parts) := by
    intro effects parts next toServer toClient clientClosed upstreamClosed reports
    constructor
    case toServer => exact toServer
    case toClient => rw [List.length_flatten, ← toClient]
    case upstream =>
      simp only [upstreamOps_append, upstreamOps_writes, upstreamOps_of_reports reports]
      rfl
    case client =>
      simp only [clientOps_append, clientOps_writes, clientOps_of_reports reports,
        List.append_nil, List.map_append]
      rfl
    case clientClosed => simp [clientClosed]
    case upstreamClosed => simp [upstreamClosed]
    case requestSide => exact absurd rfl
    case responseSide => simp [RelayEvent.upstream]
  have flushed : ∀ {u : RelayState} {plan : BodyRewritePlan} {sent : List Effect × List Bytes},
      env.flushBody u plan = some sent → Reports sent.1 := by
    intro u plan sent flushed
    unfold flushBody at flushed
    dsimp only at flushed
    split at flushed
    · split at flushed
      · obtain ⟨overflow, -, rfl⟩ := Option.map_eq_some_iff.mp flushed
        exact reports_attempt _ _ _
      · cases flushed
        exact List.forall_mem_nil _
    · cases flushed
      exact reports_attempt _ _ _
  unfold onUpstreamEof at reacts
  dsimp only at reacts
  split at reacts
  · cases reacts
  · rename_i effects parts next sends
    cases reacts
    refine ⟨nonEmptyPart s.pending ++ parts, ?_⟩
    split at sends
    · split at sends
      · obtain ⟨sent, sent_eq, same⟩ := Option.map_eq_some_iff.mp sends
        cases same
        exact flushes rfl rfl rfl rfl (flushed sent_eq)
      · cases sends
        exact flushes rfl rfl rfl rfl (List.forall_mem_nil _)
    · cases sends
      exact flushes rfl rfl rfl rfl (List.forall_mem_nil _)

/-- Handling a client read that is not answered forwards one request. -/
theorem onClientRead_adds (chunk : ReadChunk)
    (reacts : env.onClientRead s chunk.bytes = ⟨outputs, .running t⟩) :
    ∃ request, Adds s (.clientRead chunk) outputs t [request] [] := by
  have forwards : ∀ {u : RelayState} {effects : List Effect} {bytes : Bytes},
      forward u effects bytes = ⟨outputs, .running t⟩ → SameAccount s u → Reports effects →
      Adds s (.clientRead chunk) outputs t [bytes] [] := by
    rintro u effects bytes ⟨⟩ ⟨toServer, toClient, clientClosed, upstreamClosed⟩ reports
    constructor
    case toServer => simp [toServer]
    case toClient => exact toClient
    case upstream =>
      rw [upstreamOps_append, upstreamOps_of_reports reports]
      rfl
    case client =>
      rw [clientOps_append, clientOps_of_reports reports]
      rfl
    case clientClosed => simp [clientClosed]
    case upstreamClosed => simp [upstreamClosed]
    case requestSide => exact fun _ => ⟨chunk, rfl⟩
    case responseSide => exact absurd rfl
  have profile := (bookkeeping_profile env.sessionPlan.userProfileName).reports
  have filtered := (env.bookkeeping_filterRequest chunk.bytes).reports
  unfold onClientRead at reacts
  split at reacts
  · exact ⟨_, forwards reacts ⟨rfl, rfl, rfl, rfl⟩ (List.forall_mem_nil _)⟩
  · dsimp only at reacts
    split at reacts
    · cases reacts
    · exact ⟨_, forwards reacts ⟨rfl, rfl, rfl, rfl⟩
        (List.forall_mem_append.mpr ⟨profile, filtered⟩)⟩

/-- Handling an event and going on adds its writes to the account. -/
theorem handle_adds {event : RelayEvent} (reacts : env.handle s event = ⟨outputs, .running t⟩) :
    ∃ requests parts, Adds s event outputs t requests parts := by
  cases event with
  | clientRead chunk =>
      obtain ⟨request, adds⟩ := onClientRead_adds chunk reacts
      exact ⟨_, _, adds⟩
  | clientEof =>
      cases reacts
      refine ⟨[], [], rfl, rfl, rfl, rfl, ?_, ?_, absurd rfl, absurd rfl⟩
      · simp
      · simp
  | clientError error => cases reacts
  | upstreamRead chunk =>
      obtain ⟨parts, adds⟩ := onUpstreamRead_adds chunk reacts
      exact ⟨_, _, adds⟩
  | upstreamEof =>
      obtain ⟨parts, adds⟩ := onUpstreamEof_adds reacts
      exact ⟨_, _, adds⟩
  | upstreamError error => cases reacts

/-- A read that is handled by going on is not answered with 403. -/
theorem not_blocksFirst_of_goesOn {event : RelayEvent}
    (reacts : env.handle s event = ⟨outputs, .running t⟩) :
    env.blocksFirst s.firstRequestChecked (clientReads [event]) = false := by
  cases event with
  | clientRead chunk =>
      by_contra blocks
      rw [Bool.not_eq_false, blocksFirst, Bool.and_eq_true, Bool.not_eq_true'] at blocks
      have answered : env.blocksWebsocket chunk.bytes = true := blocks.2
      rw [handle, onClientRead, if_neg (by simp [blocks.1])] at reacts
      dsimp only at reacts
      rw [if_pos answered] at reacts
      cases reacts
  | _ => exact env.blocksFirst_nil _

/-- Handling an event stops the relay when a stream fails, or behind the 403 answer. -/
theorem handle_halts {phase : ResponsePhase} {event : RelayEvent} {verdict : RelayVerdict}
    (represents : env.Represents s phase) (polled : env.relay.polls s event = true)
    (reacts : env.handle s event = ⟨outputs, .halted verdict⟩) :
    (outputs = [] ∧ verdict ≠ .returned ∧ event ≠ .clientEof ∧ event ≠ .upstreamEof) ∨
      (∃ chunk, event = .clientRead chunk) ∧ websocketBlocked outputs = true ∧
        upstreamOps outputs = [] ∧ clientOps outputs = [.writeClient websocketBlockedResponse] := by
  have goes_on : ∀ {reaction : RelayReaction} {now : List Effect × ResponsePhase},
      env.Follows s reaction now → reaction ≠ ⟨outputs, .halted verdict⟩ := by
    rintro reaction now ⟨t, rfl, -⟩ ⟨⟩
  cases event with
  | clientRead chunk =>
      have profile := (bookkeeping_profile env.sessionPlan.userProfileName).reports
      have recorded := (env.bookkeeping_record .websocketBlocked).reports
      rw [handle, onClientRead] at reacts
      split at reacts
      · cases reacts
      · dsimp only at reacts
        split at reacts
        · cases reacts
          have answered : Reports (.log .websocketBlocked :: env.record .websocketBlocked) :=
            List.forall_mem_cons.mpr ⟨rfl, recorded⟩
          have reports := List.forall_mem_append.mpr ⟨profile, answered⟩
          refine .inr ⟨⟨chunk, rfl⟩, by simp [Effect.isWebsocketBlock], ?_, ?_⟩
          · rw [upstreamOps_append, upstreamOps_of_reports reports]
            rfl
          · rw [clientOps_append, clientOps_of_reports reports]
            rfl
        · cases reacts
  | clientEof => cases reacts
  | clientError error =>
      cases reacts
      refine .inl ⟨rfl, ?_, ?_, ?_⟩
      all_goals exact fun same => by cases same
  | upstreamRead chunk =>
      have opened : s.upstreamClosed = false := by simpa [relay] using polled
      exact absurd reacts (goes_on (env.onUpstreamRead_follows represents opened chunk.bytes))
  | upstreamEof =>
      have opened : s.upstreamClosed = false := by simpa [relay] using polled
      exact absurd reacts (goes_on (env.onUpstreamEof_follows represents opened))
  | upstreamError error =>
      cases reacts
      refine .inl ⟨rfl, ?_, ?_, ?_⟩
      all_goals exact fun same => by cases same

/-! ## Whole runs -/

/-- Each direction shows writes and then at most one half-close; a 403 answer comes last. -/
structure Account (events : List RelayEvent) (outputs : List Effect) (requests parts : List Bytes) :
    Prop where
  upstream : upstreamOps outputs =
    requests.map .writeUpstream ++ halfClose (events.contains .clientEof) .shutdownUpstream
  client : clientOps outputs =
    parts.map .writeClient ++ halfClose (events.contains .upstreamEof) .shutdownClient ++
      if websocketBlocked outputs then [.writeClient websocketBlockedResponse] else []

/-- The account of a state the loop is in. -/
structure Accounted (events : List RelayEvent) (outputs : List Effect) (s : RelayState)
    (requests parts : List Bytes) : Prop where
  account : Account events outputs requests parts
  toServer : s.clientToServerBytes = requests.flatten.length
  toClient : s.serverToClientBytes = parts.flatten.length
  clientClosed : s.clientClosed = events.contains .clientEof
  upstreamClosed : s.upstreamClosed = events.contains .upstreamEof

/-- Writes behind a half-close that has not happened yet come in front of it. -/
theorem halfClose_append {writes more : List Effect} {closed closes : Bool} {shutdown : Effect}
    (late : closed = true → more = [] ∧ closes = false) :
    writes ++ halfClose closed shutdown ++ (more ++ halfClose closes shutdown) =
      writes ++ more ++ halfClose (closed || closes) shutdown := by
  cases closed with
  | false => simp [halfClose]
  | true =>
      obtain ⟨rfl, rfl⟩ := late rfl
      simp [halfClose]

/-- Going on with an event extends the account by what the event adds. -/
theorem Accounted.adds {events : List RelayEvent} {event : RelayEvent} {now : List Effect}
    {requests parts requests' parts' : List Bytes}
    (accounted : Accounted events outputs s requests parts)
    (unblocked : websocketBlocked outputs = false ∧ websocketBlocked now = false)
    (polled : env.relay.polls s event = true) (adds : Adds s event now t requests' parts') :
    Accounted (events ++ [event]) (outputs ++ now) t (requests ++ requests') (parts ++ parts') := by
  obtain ⟨account, toServer, toClient, clientClosed, upstreamClosed⟩ := accounted
  have grows : ∀ other : RelayEvent,
      (events ++ [event]).contains other = (events.contains other || event == other) := by
    intro other
    rw [List.contains_append, List.contains_cons, List.contains_nil, Bool.or_false,
      Bool.beq_comm]
  have request_late : events.contains .clientEof = true →
      requests'.map Effect.writeUpstream = [] ∧ (event == .clientEof) = false := by
    intro closed
    rw [← clientClosed] at closed
    refine ⟨?_, ?_⟩
    · by_contra some_request
      obtain ⟨chunk, rfl⟩ := adds.requestSide (by simpa using some_request)
      simp [relay, closed] at polled
    · by_contra ends
      obtain rfl : event = .clientEof := by simpa using ends
      simp [relay, closed] at polled
  have response_late : events.contains .upstreamEof = true →
      parts'.map Effect.writeClient = [] ∧ (event == .upstreamEof) = false := by
    intro closed
    rw [← upstreamClosed] at closed
    refine ⟨?_, ?_⟩
    · by_contra some_part
      have upstream := adds.responseSide (by simpa using some_part)
      cases event <;> simp_all [relay, RelayEvent.upstream]
    · by_contra ends
      obtain rfl : event = .upstreamEof := by simpa using ends
      simp [relay, closed] at polled
  constructor
  case account =>
    constructor
    case upstream =>
      rw [upstreamOps_append, account.upstream, adds.upstream, halfClose_append request_late, grows,
        List.map_append]
    case client =>
      have earlier := account.client
      rw [unblocked.1, if_neg Bool.false_ne_true, List.append_nil] at earlier
      rw [clientOps_append, earlier, adds.client, halfClose_append response_late, grows,
        List.map_append, websocketBlocked_append, unblocked.1, unblocked.2]
      exact (List.append_nil _).symm
  case toServer => rw [adds.toServer, toServer, List.flatten_append, List.length_append]
  case toClient => rw [adds.toClient, toClient, List.flatten_append, List.length_append]
  case clientClosed => rw [adds.clientClosed, clientClosed, grows]
  case upstreamClosed => rw [adds.upstreamClosed, upstreamClosed, grows]

/-- What a polled event adds when it is handled by going on. -/
theorem Accounted.handle {events : List RelayEvent} {event : RelayEvent} {now : List Effect}
    {requests parts : List Bytes} (execution : env.relay.Run {} events outputs (.running s))
    (accounted : Accounted events outputs s requests parts)
    (polled : env.relay.polls s event = true) (reacts : env.handle s event = ⟨now, .running t⟩) :
    ∃ requests parts, Accounted (events ++ [event]) (outputs ++ now) t requests parts ∧
      websocketBlocked (outputs ++ now) = false := by
  obtain ⟨represents, -, -, unblocked⟩ :=
    (run_report execution env.represents_initial).running s rfl
  have silent : websocketBlocked now = false := by
    have report := (react_report represents polled).blocked
    rw [not_blocksFirst_of_goesOn reacts, react_eq_settle, reacts] at report
    unfold settle at report
    dsimp only at report
    split at report
    · simpa [Effect.isWebsocketBlock] using report
    · exact report
  obtain ⟨requests', parts', adds⟩ := handle_adds reacts
  exact ⟨_, _, accounted.adds ⟨unblocked, silent⟩ polled adds, by simp [unblocked, silent]⟩

theorem settle_running {reaction : RelayReaction}
    (reacts : settle reaction = ⟨outputs, .running t⟩) :
    reaction = ⟨outputs, .running t⟩ := by
  obtain ⟨now, status⟩ := reaction
  unfold settle at reacts
  split at reacts
  · split at reacts
    · cases reacts
    · exact reacts
  · exact reacts

/-- The relay halts where handling does, or by leaving the loop. -/
theorem settle_halted {reaction : RelayReaction} {verdict : RelayVerdict}
    (reacts : settle reaction = ⟨outputs, .halted verdict⟩) :
    reaction = ⟨outputs, .halted verdict⟩ ∨
      ∃ done t, reaction = ⟨done, .running t⟩ ∧
        outputs = done ++ [.log (.mitmHttp1Relay t.clientToServerBytes t.serverToClientBytes)] := by
  obtain ⟨now, status⟩ := reaction
  unfold settle at reacts
  split at reacts
  · rename_i t goes
    split at reacts
    · cases goes
      exact .inr ⟨now, t, rfl, (congrArg Reaction.outputs reacts).symm⟩
    · exact .inl reacts
  · exact .inl reacts

/-- Every state the loop reaches has counted what has been written. -/
theorem accounted_of_run {events : List RelayEvent}
    (execution : env.relay.Run {} events outputs (.running s)) :
    ∃ requests parts, Accounted events outputs s requests parts := by
  refine execution.history
    (fun events outputs s => ∃ requests parts, Accounted events outputs s requests parts)
    ⟨[], [], ⟨rfl, rfl⟩, rfl, rfl, rfl, rfl⟩ ?_
  rintro events outputs s event now t front ⟨requests, parts, accounted⟩ polled reacts
  rw [react_eq_settle] at reacts
  obtain ⟨requests', parts', accounted', -⟩ :=
    accounted.handle front polled (settle_running reacts)
  exact ⟨requests', parts', accounted'⟩

/-- The entry logged behind an account changes neither direction. -/
theorem Account.log {events : List RelayEvent} {requests parts : List Bytes}
    (account : Account events outputs requests parts) (toServer toClient : Nat) :
    Account events (outputs ++ [.log (.mitmHttp1Relay toServer toClient)]) requests parts := by
  have reports : Reports [.log (.mitmHttp1Relay toServer toClient)] :=
    List.forall_mem_singleton.mpr rfl
  constructor
  case upstream =>
    rw [upstreamOps_append, upstreamOps_of_reports reports, List.append_nil, account.upstream]
  case client =>
    rw [clientOps_append, clientOps_of_reports reports, List.append_nil, account.client,
      websocketBlocked_append]
    simp [Effect.isWebsocketBlock]

/-- The account of a relay that handling an event has stopped. -/
theorem Accounted.stops {phase : ResponsePhase} {events : List RelayEvent} {event : RelayEvent}
    {now : List Effect} {verdict : RelayVerdict} {requests parts : List Bytes}
    (accounted : Accounted events outputs s requests parts)
    (unblocked : websocketBlocked outputs = false) (represents : env.Represents s phase)
    (polled : env.relay.polls s event = true)
    (reacts : env.handle s event = ⟨now, .halted verdict⟩) :
    Account (events ++ [event]) (outputs ++ now) requests parts ∧
      (verdict = .returned → websocketBlocked (outputs ++ now) = true) := by
  obtain ⟨upstream, client⟩ := accounted.account
  rw [unblocked, if_neg Bool.false_ne_true, List.append_nil] at client
  rcases handle_halts represents polled reacts with
    ⟨rfl, failed, not_eof, not_end⟩ | ⟨⟨chunk, rfl⟩, blocks, no_request, answer⟩
  · refine ⟨⟨?_, ?_⟩, fun returned => absurd returned failed⟩
    · simpa [Ne.symm not_eof] using upstream
    · simpa [Ne.symm not_end, unblocked] using client
  · refine ⟨⟨?_, ?_⟩, fun _ => by simp [blocks]⟩
    · simpa [no_request] using upstream
    · simp [client, answer, blocks]

/-- In every run each direction shows writes and then at most one half-close, behind the end of the
other peer's stream; nothing but the 403 answer to a WebSocket upgrade follows a half-close.  The
loop's counters are the lengths of the writes, and so is the entry the loop logs at its end. -/
theorem run_account {events : List RelayEvent} {status : Status RelayState RelayVerdict}
    (execution : env.relay.Run {} events outputs status) :
    ∃ requests parts, Account events outputs requests parts ∧
      (∀ s, status = .running s → s.clientToServerBytes = requests.flatten.length ∧
        s.serverToClientBytes = parts.flatten.length) ∧
      (status = .halted .returned → websocketBlocked outputs = false →
        outputs.getLast? =
          some (.log (.mitmHttp1Relay requests.flatten.length parts.flatten.length))) := by
  cases status with
  | running s =>
      obtain ⟨requests, parts, account, toServer, toClient, -⟩ := accounted_of_run execution
      refine ⟨requests, parts, account, ?_, nofun⟩
      rintro _ ⟨⟩
      exact ⟨toServer, toClient⟩
  | halted verdict =>
      obtain ⟨front, event, seen, s, now, rfl, first, polled, reacts, rfl⟩ := execution.halted_cases
      obtain ⟨requests, parts, accounted⟩ := accounted_of_run first
      obtain ⟨represents, -, -, unblocked⟩ :=
        (run_report first env.represents_initial).running s rfl
      rw [react_eq_settle] at reacts
      rcases settle_halted reacts with handled | ⟨done, t, handled, rfl⟩
      · obtain ⟨account, blocks⟩ := accounted.stops unblocked represents polled handled
        refine ⟨requests, parts, account, fun _ goes => (by cases goes), fun returned quiet => ?_⟩
        have answered := blocks (Status.halted.inj returned)
        exact absurd (quiet.symm.trans answered) Bool.false_ne_true
      · obtain ⟨requests', parts', accounted', -⟩ := accounted.handle first polled handled
        obtain ⟨account, toServer, toClient, -⟩ := accounted'
        rw [← List.append_assoc]
        refine ⟨requests', parts', account.log _ _, fun _ goes => (by cases goes), fun _ _ => ?_⟩
        rw [List.getLast?_concat, toServer, toClient]

/-- The account of a tracker's response that ends while its client is still connected. -/
theorem conservationEvents_account :
    ∃ outputs status,
      (sampleTunnel (.defaultForMode .enforce) trackerHost).relay.Run {} conservationEvents outputs
        status ∧
      ∃ requests parts, Account conservationEvents outputs requests parts ∧
        (∀ s, status = .running s → s.clientToServerBytes = requests.flatten.length ∧
          s.serverToClientBytes = parts.flatten.length) ∧
        (status = .halted .returned → websocketBlocked outputs = false →
          outputs.getLast? =
            some (.log (.mitmHttp1Relay requests.flatten.length parts.flatten.length))) := by
  have executes : ((sampleTunnel (.defaultForMode .enforce) trackerHost).relay.run {}
      conservationEvents).map (fun _ => ()) = some () := by
    decide +kernel
  obtain ⟨outputs, status, execution, -⟩ := Machine.exists_run _ _ _ _ executes
  exact ⟨outputs, status, execution, run_account execution⟩

/-! ## What is held back -/

/-- What waits to be sent to the client: bytes received in front of a header block, or the policy's
header block and the body behind it. -/
def held (s : RelayState) : Bytes :=
  if s.bufferingBody then s.deferredHeaders.getD [] ++ s.bodyBuffer else s.pending

variable (env) in
/-- The most a relay holds back of a body. -/
def heldLimit : Nat := max maxHttp1HeaderBytes env.rewritePlan.maxBodyBytes

variable (env) in
/-- The phase holds back no more than the limit. -/
def WithinLimit : ResponsePhase → Prop
  | .awaitingHeaders pending => pending.length ≤ maxHttp1HeaderBytes
  | .holdingBody _ body => body.length ≤ env.heldLimit
  | .passingThrough | .ended => True

theorem withinLimit_growBody {headers body : Bytes} :
    env.WithinLimit (env.growBody headers body).2 := by
  have below : ¬ env.rewritePlan.maxBodyBytes ≤ body.length → body.length ≤ env.heldLimit :=
    fun short => le_max_of_le_right (not_le.mp short).le
  unfold growBody
  dsimp only
  split
  · split
    · trivial
    · split
      · trivial
      · rename_i short _ _
        exact below short
  · split
    · trivial
    · split
      · trivial
      · rename_i short
        exact below short
  · split
    · trivial
    · rename_i short
      exact below short

/-- An upstream input keeps the limit: a held body is at most the rest of a header read, or has just
been found to be shorter than the body limit. -/
theorem WithinLimit.phaseStep {phase : ResponsePhase} (input : UpstreamInput) :
    env.WithinLimit phase → env.WithinLimit (env.phaseStep phase input).2 := by
  intro within
  cases phase with
  | awaitingHeaders pending =>
      cases input with
      | eof => trivial
      | read chunk =>
          rw [RelayEnv.phaseStep]
          split
          · trivial
          · rename_i short
            split
            · exact not_lt.mp short
            · rename_i headerEnd found
              unfold openResponse
              dsimp only
              split
              · split
                · trivial
                · have rest := List.length_drop (i := headerEnd) (l := pending ++ chunk)
                  exact le_max_of_le_left (by omega)
              · trivial
  | holdingBody headers body =>
      cases input with
      | eof => trivial
      | read chunk => exact withinLimit_growBody
  | passingThrough => cases input <;> trivial
  | ended => cases input <;> trivial

theorem WithinLimit.phaseRun {phase : ResponsePhase} (inputs : List UpstreamInput)
    (within : env.WithinLimit phase) : env.WithinLimit (env.phaseRun phase inputs).2 := by
  induction inputs generalizing phase with
  | nil => exact within
  | cons input inputs ih => exact ih (within.phaseStep input)

variable (env) in
/-- What a relay can hold back of what it has received. -/
inductive HeldBack (reads : List Bytes) : Bytes → Prop
  | unopened (unfound : ¬ HeadersFound reads) (fits : reads.flatten.length ≤ maxHttp1HeaderBytes) :
      HeldBack reads reads.flatten
  | response {headers after : Bytes} (opened : env.Opened reads headers after)
      (holds : env.Holds headers) (fits : after.length ≤ env.heldLimit) :
      HeldBack reads (headers ++ after)

/-- In every state a run reaches, as long as anything is held back, nothing has been sent to the
client, and what is held back is all that has been received, or the policy's header block and all
that has been received behind the block it replaces, within the limits.  Nothing is held back once
the upstream side is closed. -/
theorem held_of_run {events : List RelayEvent}
    (execution : env.relay.Run {} events outputs (.running s)) :
    (held s ≠ [] → clientBytes outputs = [] ∧ env.HeldBack (upstreamReads events) (held s)) ∧
      (s.upstreamClosed = true → held s = []) := by
  obtain ⟨represents, -, -, unblocked⟩ :=
    (run_report execution env.represents_initial).running s rfl
  have reached := (reached_of_run execution).1
  have client := (clientBytes_of_run execution).1
  rw [blockedReply_of_unblocked unblocked, List.append_nil] at client
  have within : env.WithinLimit (env.phaseRun (.awaitingHeaders []) (upstreamInputs events)).2 :=
    WithinLimit.phaseRun _ (Nat.zero_le _)
  rw [client]
  rw [afterEvents] at reached ⊢
  generalize (env.phaseRun (.awaitingHeaders []) (upstreamInputs events)).2 = phase
    at represents reached within
  cases phase with
  | awaitingHeaders pending =>
      obtain ⟨opened, -, idle, rfl⟩ := represents
      obtain ⟨all, unfound, silent, -⟩ := reached
      have kept : held s = (upstreamReads events).flatten := by simp [held, idle, all]
      have fits : (upstreamReads events).flatten.length ≤ maxHttp1HeaderBytes := all ▸ within
      rw [kept]
      exact ⟨fun _ => ⟨silent, .unopened unfound fits⟩, by simp [opened]⟩
  | holdingBody headers body =>
      obtain ⟨opened, -, holding, -, rfl, -, deferred, -⟩ := represents
      obtain ⟨received, holds, silent, -⟩ := reached
      have kept : held s = headers ++ s.bodyBuffer := by simp [held, holding, deferred]
      rw [kept]
      exact ⟨fun _ => ⟨silent, .response received holds within⟩, by simp [opened]⟩
  | passingThrough =>
      obtain ⟨-, -, idle, empty⟩ := represents
      simp [held, idle, empty]
  | ended =>
      obtain ⟨-, idle, empty⟩ := represents
      simp [held, idle, empty]

/-- The first bytes of a page are held. -/
theorem brokenPage_held :
    ∃ outputs s, (pageTunnel .enforce).relay.Run {} brokenPageEvents outputs (.running s) ∧
      held s = ascii "HTTP/1.1 200 OK\r\nContent-Type: text/html\r\n\r\n<p>" ∧
      clientBytes outputs = [] ∧
      (pageTunnel .enforce).HeldBack (upstreamReads brokenPageEvents) (held s) := by
  have executes : ((pageTunnel .enforce).relay.run {} brokenPageEvents).map
      (fun reaction => reaction.status.state?.map held) =
      some (some (ascii "HTTP/1.1 200 OK\r\nContent-Type: text/html\r\n\r\n<p>")) := by
    decide +kernel
  obtain ⟨outputs, status, execution, observed⟩ := Machine.exists_run _ _ _ _ executes
  obtain ⟨s, goes_on, kept⟩ := Option.map_eq_some_iff.mp observed
  obtain rfl := Status.eq_running goes_on
  have filled : held s ≠ [] := by
    rw [kept]
    decide
  exact ⟨outputs, s, execution, kept, (held_of_run execution).1 filled⟩

end RelayEnv

end PrivacyEngine
