import PrivacyEngine.Dns.Filter

/-!
# Replies of the DNS filter

Whatever waits in the shared upstream queue, a client is only sent a refusal of its own query or a
reply that matches it, and no reply that resolves a blocked name, directly or through a CNAME.
-/

namespace PrivacyEngine

open Wire Reactive

/-- Replies received from upstream, as the loop reads them. -/
def upstreamReplies (events : List DnsEvent) : List Bytes :=
  events.flatMap fun
    | .upstreamArrives datagram => [datagram.take maxDnsPacket]
    | .dohAnswer data => [data]
    | _ => []

/-- The query a phase is busy with. -/
def DnsPhase.forwarding? : DnsPhase → Option DnsFilterConfig.Forwarding
  | .listening => none
  | .sending forwarding | .receiving forwarding | .querying _ forwarding => some forwarding

namespace DnsFilterConfig

variable (config : DnsFilterConfig)

/-- Whether the policy blocks a normalized name. -/
def blocksName (name : Str) : Bool := (config.policyEngine.planForDnsQuery name).shouldBlock

/-- A reply that may be sent back for a query: it parses, has the query's identifier and repeats its
question if it has one, and neither the name asked for nor a CNAME target is blocked. -/
def Acceptable (query : DnsMessage config.hickory.Name)
    (question : DnsQuestion config.hickory.Name) (reply : Bytes) : Prop :=
  ∃ message, config.hickory.fromBytes reply = .ok message ∧
    message.header.id = query.header.id ∧
    (∀ first, message.queries.head? = some first →
      config.hickory.nameOf first.name = config.hickory.nameOf question.name ∧
        first.queryType = question.queryType ∧ first.queryClass = question.queryClass) ∧
    config.blocksName (config.hickory.nameOf question.name) = false ∧
    ∀ name, .cname name ∈ message.answers → config.blocksName (config.hickory.nameOf name) = false

variable {config} {forwarding : Forwarding} {query : DnsMessage config.hickory.Name}
  {question : DnsQuestion config.hickory.Name}

/-! ## One reply -/

/-- In enforce mode the check answers with a refusal at the first blocked target, and only then. -/
theorem checkCnames_enforce (enforce : config.policyEngine.cfg.mode = .enforce)
    (parses : config.hickory.fromBytes forwarding.query = .ok query) (targets : List Str) :
    (config.checkCnames forwarding targets).2 = true ∧
        replies (config.checkCnames forwarding targets).1 =
          [(forwarding.client, config.hickory.buildNxdomain query)] ∨
      (config.checkCnames forwarding targets).2 = false ∧
        replies (config.checkCnames forwarding targets).1 = [] ∧
        ∀ target ∈ targets, config.blocksName target = false := by
  induction targets with
  | nil => exact .inr ⟨rfl, rfl, by simp⟩
  | cons target targets ih =>
      rw [checkCnames]
      split
      · simp only [PolicyEngine.planForDnsQuery_mode, enforce, parses]
        exact .inl ⟨trivial, by simp [DnsEffect.sent]⟩
      · rename_i passes
        rcases ih with answered | ⟨unanswered, silent, free⟩
        · exact .inl answered
        · exact .inr ⟨unanswered, silent,
            List.forall_mem_cons.mpr ⟨by simpa [blocksName] using passes, free⟩⟩

/-- What is sent back when a reply is delivered for an unblocked standard query. -/
theorem replies_deliver (enforce : config.policyEngine.cfg.mode = .enforce)
    (parses : config.hickory.fromBytes forwarding.query = .ok query)
    (standard : config.hickory.standardQuestion query = some question)
    (unblocked : config.blocksName (config.hickory.nameOf question.name) = false) (reply : Bytes) :
    replies (config.deliver forwarding reply) = [] ∨
      replies (config.deliver forwarding reply) =
        [(forwarding.client, config.hickory.buildNxdomain query)] ∨
      replies (config.deliver forwarding reply) = [(forwarding.client, reply)] ∧
        config.Acceptable query question reply := by
  have key : QueryKey.fromQueryBytes config.hickory forwarding.query =
      some ⟨query.header.id, config.hickory.nameOf question.name, question.queryType,
        question.queryClass⟩ := by
    simp [QueryKey.fromQueryBytes, parses, standard]
  rw [deliver, key]
  dsimp only
  split
  · rename_i agrees
    obtain ⟨message, reads, same_id, same_question⟩ :=
      (QueryKey.matchesReplyBytes_iff _ _ _).mp agrees
    unfold deliver.checked
    dsimp only
    rcases checkCnames_enforce enforce parses (extractCnameTargets config.hickory reply) with
      ⟨answered, refusal⟩ | ⟨unanswered, silent, free⟩
    · rw [answered, if_pos rfl]
      exact .inr (.inl refusal)
    · rw [unanswered, if_neg Bool.false_ne_true]
      refine .inr (.inr ⟨by simp [silent, DnsEffect.sent], message, reads, same_id, same_question,
        unblocked, fun name mem => ?_⟩)
      exact free _ ((mem_extractCnameTargets reads).mpr ⟨name, mem, rfl⟩)
  · exact .inl rfl

/-! ## One event -/

variable (config) in
/-- What one event can do to the loop. -/
inductive Turn (s : DnsState) : DnsEvent → List DnsEffect → DnsState → Prop
  | arrives (datagram : Bytes) :
      Turn s (.upstreamArrives datagram) []
        { s with upstreamQueue := s.upstreamQueue ++ [datagram] }
  | packet {datagram : Bytes} {client : SocketAddr} {outputs : List DnsEffect} {t : DnsState}
      (listening : s.phase = .listening)
      (handles : config.onPacket s (datagram.take maxDnsPacket) client = ⟨outputs, .running t⟩) :
      Turn s (.packet datagram client) outputs t
  | idle {event : DnsEvent} {outputs : List DnsEffect} (listening : s.phase = .listening)
      (silent : replies outputs = []) : Turn s event outputs s
  | sent {event : DnsEvent} {forwarding : Forwarding}
      (busy : s.phase.forwarding? = some forwarding) :
      Turn s event [] { s with phase := .receiving forwarding }
  | abandon {event : DnsEvent} {outputs : List DnsEffect} {forwarding : Forwarding}
      (busy : s.phase.forwarding? = some forwarding) (silent : replies outputs = []) :
      Turn s event outputs { s with phase := .listening }
  | receive {event : DnsEvent} {forwarding : Forwarding} {datagram : Bytes} {queue : List Bytes}
      (busy : s.phase.forwarding? = some forwarding) (front : s.upstreamQueue = datagram :: queue) :
      Turn s event (config.deliver forwarding (datagram.take maxDnsPacket)) ⟨.listening, queue⟩
  | answer {forwarding : Forwarding} {data : Bytes} (busy : s.phase.forwarding? = some forwarding) :
      Turn s (.dohAnswer data) (config.deliver forwarding data) { s with phase := .listening }

theorem turn_of_react {s t : DnsState} {event : DnsEvent} {outputs : List DnsEffect}
    (polled : config.runDnsFilter.polls s event = true)
    (reacts : config.runDnsFilter.react s event = ⟨outputs, .running t⟩) :
    config.Turn s event outputs t := by
  obtain ⟨phase, queue⟩ := s
  cases event with
  | upstreamArrives datagram =>
      cases reacts
      exact .arrives datagram
  | packet datagram client =>
      cases phase with
      | listening => exact .packet rfl reacts
      | _ => cases polled
  | recvError error =>
      cases phase with
      | listening =>
          cases reacts
          exact .idle rfl rfl
      | _ => cases polled
  | upstreamSent =>
      cases phase with
      | sending forwarding =>
          cases reacts
          exact .sent rfl
      | _ => cases polled
  | upstreamSendError error =>
      cases phase with
      | sending forwarding =>
          cases reacts
          exact .abandon rfl rfl
      | _ => cases polled
  | upstreamRecv =>
      cases phase with
      | receiving forwarding =>
          cases queue with
          | nil => cases polled
          | cons datagram queue =>
              cases reacts
              exact .receive rfl rfl
      | _ => cases polled
  | upstreamRecvError error =>
      cases phase with
      | receiving forwarding =>
          cases reacts
          exact .abandon rfl rfl
      | _ => cases polled
  | upstreamTimeout =>
      cases phase with
      | receiving forwarding =>
          cases reacts
          exact .abandon rfl rfl
      | _ => cases polled
  | dohAnswer data =>
      cases phase with
      | querying url forwarding =>
          cases reacts
          exact .answer rfl
      | _ => cases polled
  | dohError error =>
      cases phase with
      | querying url forwarding =>
          cases reacts
          exact .abandon rfl rfl
      | _ => cases polled
  | dohTimeout =>
      cases phase with
      | querying url forwarding =>
          cases reacts
          exact .abandon rfl rfl
      | _ => cases polled

/-! ## Runs -/

variable {s t : DnsState} {events front during : List DnsEvent} {outputs seen mine : List DnsEffect}
  {status : Status DnsState Empty}

@[simp] theorem upstreamReplies_nil : upstreamReplies [] = [] := rfl

@[simp] theorem upstreamReplies_append (left right : List DnsEvent) :
    upstreamReplies (left ++ right) = upstreamReplies left ++ upstreamReplies right :=
  List.flatMap_append

/-- The replies that are in the queue or arrive. -/
def available (s : DnsState) (events : List DnsEvent) : List Bytes :=
  s.upstreamQueue.map (·.take maxDnsPacket) ++ upstreamReplies events

theorem onPacket_upstreamQueue {queryData : Bytes} {client : SocketAddr}
    (handles : config.onPacket s queryData client = ⟨outputs, .running t⟩) :
    t.upstreamQueue = s.upstreamQueue := by
  unfold onPacket at handles
  split at handles
  · cases handles
    rfl
  · dsimp only at handles
    split at handles
    · cases handles
      rfl
    · cases handles
      rfl

/-- No event makes a reply available that was neither queued nor received. -/
theorem Turn.available_subset {event : DnsEvent} (turn : config.Turn s event outputs t)
    (events : List DnsEvent) : available t events ⊆ available s (event :: events) := by
  have cons_eq : upstreamReplies (event :: events) =
      upstreamReplies [event] ++ upstreamReplies events :=
    upstreamReplies_append [event] events
  have queued : t.upstreamQueue.map (·.take maxDnsPacket) ⊆
      s.upstreamQueue.map (·.take maxDnsPacket) ++ upstreamReplies [event] := by
    cases turn with
    | arrives datagram =>
        rw [List.map_append]
        exact List.Subset.refl _
    | packet _ handles =>
        rw [onPacket_upstreamQueue handles]
        exact List.subset_append_left _ _
    | receive _ front =>
        rw [front]
        exact List.subset_append_of_subset_left _ (List.subset_cons_self _ _)
    | _ => exact List.subset_append_left _ _
  unfold available
  rw [cons_eq, ← List.append_assoc]
  exact List.append_subset.mpr
    ⟨List.subset_append_of_subset_left _ queued, List.subset_append_right _ _⟩

/-- A reachable state has queued nothing but what upstream sent. -/
theorem queued_of_run (execution : config.runDnsFilter.Run s events outputs (.running t)) :
    available t [] ⊆ available s events := by
  generalize status_eq : Status.running t = status at execution
  induction execution with
  | stop state =>
      cases status_eq
      exact List.Subset.refl _
  | step polled reacts _ ih =>
      exact List.Subset.trans (ih status_eq) ((turn_of_react polled reacts).available_subset _)
  | halt => cases status_eq

/-- While it listens, the loop sends nothing until the next packet. -/
theorem replies_of_listening (execution : config.runDnsFilter.Run s events outputs status)
    (listening : s.phase = .listening)
    (alone : ∀ datagram client, .packet datagram client ∉ events) :
    replies outputs = [] := by
  induction execution with
  | stop state => rfl
  | @step state next event events outputs later status polled reacts _ ih =>
      have rest_alone : ∀ datagram client, .packet datagram client ∉ events :=
        fun datagram client mem => alone datagram client (List.mem_cons_of_mem _ mem)
      have idle : ∀ {forwarding}, state.phase.forwarding? ≠ some forwarding := by
        simp [listening, DnsPhase.forwarding?]
      rw [replies_append]
      cases turn_of_react polled reacts with
      | arrives datagram => exact ih listening rest_alone
      | packet => exact absurd List.mem_cons_self (alone _ _)
      | idle _ silent => rw [silent, ih listening rest_alone, List.nil_append]
      | sent busy => exact absurd busy idle
      | abandon busy => exact absurd busy idle
      | receive busy => exact absurd busy idle
      | answer busy => exact absurd busy idle
  | halt _ _ => contradiction

/-- While it is busy with a query, the loop delivers at most one available reply for it. -/
theorem replies_of_busy (execution : config.runDnsFilter.Run s events outputs status)
    (busy : s.phase.forwarding? = some forwarding)
    (alone : ∀ datagram client, .packet datagram client ∉ events) :
    replies outputs = [] ∨
      ∃ reply ∈ available s events,
        replies outputs = replies (config.deliver forwarding reply) := by
  induction execution with
  | stop state => exact .inl rfl
  | @step state next event events outputs later status polled reacts rest ih =>
      have rest_alone : ∀ datagram client, .packet datagram client ∉ events :=
        fun datagram client mem => alone datagram client (List.mem_cons_of_mem _ mem)
      have turn := turn_of_react polled reacts
      have widen := turn.available_subset events
      rw [replies_append]
      cases turn with
      | arrives datagram =>
          rcases ih busy rest_alone with silent | ⟨reply, mem, delivered⟩
          · exact .inl silent
          · exact .inr ⟨reply, widen mem, delivered⟩
      | packet => exact absurd List.mem_cons_self (alone _ _)
      | idle listening =>
          rw [listening] at busy
          cases busy
      | sent busy' =>
          obtain rfl := Option.some.inj (busy.symm.trans busy')
          rcases ih rfl rest_alone with silent | ⟨reply, mem, delivered⟩
          · exact .inl silent
          · exact .inr ⟨reply, widen mem, delivered⟩
      | abandon _ silent =>
          rw [silent, replies_of_listening rest rfl rest_alone]
          exact .inl rfl
      | receive busy' front =>
          obtain rfl := Option.some.inj (busy.symm.trans busy')
          rw [replies_of_listening rest rfl rest_alone, List.append_nil]
          refine .inr ⟨_, ?_, rfl⟩
          simp [available, front]
      | answer busy' =>
          obtain rfl := Option.some.inj (busy.symm.trans busy')
          rw [replies_of_listening rest rfl rest_alone, List.append_nil]
          refine .inr ⟨_, ?_, rfl⟩
          simp [available, upstreamReplies]
  | halt _ _ => contradiction

/-- In enforce mode a standard query is refused when its name is blocked. -/
theorem onPacket_blocked (enforce : config.policyEngine.cfg.mode = .enforce)
    {queryData : Bytes} (parses : config.hickory.fromBytes queryData = .ok query)
    (standard : config.hickory.standardQuestion query = some question)
    (blocked : config.blocksName (config.hickory.nameOf question.name) = true)
    (client : SocketAddr) :
    ∃ outputs, config.onPacket s queryData client = ⟨outputs, .running s⟩ ∧
      replies outputs = [(client, config.hickory.buildNxdomain query)] := by
  unfold blocksName at blocked
  simp only [onPacket, processDnsQuery, parses, standard, PolicyEngine.planForDnsQuery_mode,
    enforce, blocked, if_true]
  exact ⟨_, rfl, by simp [DnsEffect.sent]⟩

/-- A standard query whose name is not blocked is forwarded. -/
theorem onPacket_unblocked {queryData : Bytes}
    (parses : config.hickory.fromBytes queryData = .ok query)
    (standard : config.hickory.standardQuestion query = some question)
    (unblocked : config.blocksName (config.hickory.nameOf question.name) = false)
    (client : SocketAddr) :
    ∃ outputs t, config.onPacket s queryData client = ⟨outputs, .running t⟩ ∧
      replies outputs = [] ∧
      t.phase.forwarding? = some ⟨queryData, client, config.queryNameOf queryData⟩ ∧
      t.upstreamQueue = s.upstreamQueue := by
  unfold blocksName at unblocked
  simp only [onPacket, processDnsQuery, parses, standard, unblocked, Bool.false_eq_true, if_false]
  split
  · exact ⟨_, _, rfl, by simp [DnsEffect.sent], rfl, rfl⟩
  · exact ⟨_, _, rfl, by simp [DnsEffect.sent], rfl, rfl⟩

theorem packet_polled {datagram : Bytes} {client : SocketAddr}
    (polled : config.runDnsFilter.polls s (.packet datagram client) = true) :
    s.phase = .listening ∧
      config.runDnsFilter.react s (.packet datagram client) =
        config.onPacket s (datagram.take maxDnsPacket) client := by
  obtain ⟨phase, queue⟩ := s
  cases phase with
  | listening => exact ⟨rfl, rfl⟩
  | _ => cases polled

/-- In every run in enforce mode, whatever waits in the upstream queue and arrives on it, a standard
query is answered at most once, to its own client, with its own refusal or with a reply received
from upstream that matches it and resolves no blocked name. -/
theorem standard_query_reply_is_sound (enforce : config.policyEngine.cfg.mode = .enforce)
    {datagram : Bytes} {client : SocketAddr}
    (before : config.runDnsFilter.Run {} front seen (.running s))
    (handling : config.runDnsFilter.Run s (.packet datagram client :: during) mine status)
    (alone : ∀ datagram client, .packet datagram client ∉ during)
    (parses : config.hickory.fromBytes (datagram.take maxDnsPacket) = .ok query)
    (standard : config.hickory.standardQuestion query = some question) :
    replies mine = [] ∨ replies mine = [(client, config.hickory.buildNxdomain query)] ∨
      ∃ reply ∈ upstreamReplies (front ++ during),
        replies mine = [(client, reply)] ∧ config.Acceptable query question reply := by
  have received : available s during ⊆ upstreamReplies (front ++ during) := by
    have queued : s.upstreamQueue.map (·.take maxDnsPacket) ⊆ upstreamReplies front := by
      simpa [available] using queued_of_run before
    rw [upstreamReplies_append]
    exact List.append_subset.mpr
      ⟨List.subset_append_of_subset_left _ queued, List.subset_append_right _ _⟩
  generalize events_eq : DnsEvent.packet datagram client :: during = events at handling
  cases handling with
  | stop => cases events_eq
  | @step _ next event events outputs later _ polled reacts rest =>
      cases events_eq
      obtain ⟨listening, reacts_eq⟩ := packet_polled polled
      rw [reacts_eq] at reacts
      rw [replies_append]
      cases blocks : config.blocksName (config.hickory.nameOf question.name) with
      | true =>
          obtain ⟨refusing, refuses, refusal⟩ :=
            onPacket_blocked (s := s) enforce parses standard blocks client
          rw [refuses] at reacts
          cases reacts
          rw [refusal, replies_of_listening rest listening alone]
          exact .inr (.inl rfl)
      | false =>
          obtain ⟨forwarded, t, forwards, silent, busy, queue⟩ :=
            onPacket_unblocked (s := s) parses standard blocks client
          rw [forwards] at reacts
          cases reacts
          rw [silent, List.nil_append]
          rcases replies_of_busy rest busy alone with nothing | ⟨reply, mem, delivered⟩
          · exact .inl nothing
          · have arrived : reply ∈ available s during := by
              rwa [available, queue] at mem
            rw [delivered]
            have outcome := @replies_deliver config
              ⟨datagram.take maxDnsPacket, client, config.queryNameOf (datagram.take maxDnsPacket)⟩
              query question enforce parses standard blocks reply
            rcases outcome with dropped | refused | ⟨sent, acceptable⟩
            · exact .inl dropped
            · exact .inr (.inl refused)
            · exact .inr (.inr ⟨reply, received arrived, sent, acceptable⟩)
  | halt => contradiction

/-! ## A sample exchange -/

/-- A query for the address of example.org. -/
def sampleQuery : Bytes :=
  [0x12, 0x34, 0x01, 0x00, 0, 1, 0, 0, 0, 0, 0, 0] ++
    7 :: ascii "example" ++ 3 :: ascii "org" ++ [0, 0, 1, 0, 1]

/-- A reply that makes example.org an alias of doubleclick.net. -/
def sampleReply : Bytes :=
  [0x12, 0x34, 0x81, 0x80, 0, 1, 0, 1, 0, 0, 0, 0] ++
    7 :: ascii "example" ++ 3 :: ascii "org" ++ [0, 0, 1, 0, 1] ++
    [0xC0, 0x0C, 0, 5, 0, 1, 0, 0, 0, 60, 0, 17] ++ 11 :: ascii "doubleclick" ++
    3 :: ascii "net" ++ [0]

/-- The refusal of the query. -/
def sampleRefusal : Bytes :=
  [0x12, 0x34, 0x81, 0x83, 0, 1, 0, 0, 0, 0, 0, 0] ++
    7 :: ascii "example" ++ 3 :: ascii "org" ++ [0, 0, 1, 0, 1]

def sampleQuestion : DnsQuestion Str := ⟨ascii "example.org.", 1, 1⟩

def sampleQueryMessage : DnsMessage Str where
  header := ⟨0x1234, .query, .query, false, false, true, false, false, false, .noError⟩
  queries := [sampleQuestion]
  answers := []

def sampleReplyMessage : DnsMessage Str where
  header := ⟨0x1234, .response, .query, false, false, true, true, false, false, .noError⟩
  queries := [sampleQuestion]
  answers := [.cname (ascii "doubleclick.net.")]

def sampleRefusalMessage : DnsMessage Str where
  header := ⟨0x1234, .response, .query, false, false, true, true, false, false, .nxDomain⟩
  queries := [sampleQuestion]
  answers := []

/-- The library on the messages of the exchange. -/
def sampleHickory : Hickory where
  Name := Str
  toAscii name := name
  fromBytes bytes :=
    if bytes = sampleQuery then .ok sampleQueryMessage
    else if bytes = sampleReply then .ok sampleReplyMessage
    else .error (ascii "unexpected end of input reached")
  toVec message := if message = sampleRefusalMessage then some sampleRefusal else none

/-- A filter that blocks doubleclick.net. -/
def sampleFilter : DnsFilterConfig where
  hickory := sampleHickory
  policyEngine :=
    { cfg :=
        { PolicyConfig.defaultForMode .enforce with
          dnsBlock := { enabled := true, domains := [ascii "doubleclick.net"] } } }
  receiptsStore := true
  upstreamDoh := none

theorem alias_of_blocked_name_is_refused :
    ∃ mine status,
      sampleFilter.runDnsFilter.Run {}
        [.packet sampleQuery (ascii "127.0.0.1:5353"), .upstreamSent, .upstreamArrives sampleReply,
          .upstreamRecv] mine status ∧
      replies mine = [(ascii "127.0.0.1:5353", sampleRefusal)] := by
  have executes : (sampleFilter.runDnsFilter.run {}
      [.packet sampleQuery (ascii "127.0.0.1:5353"), .upstreamSent, .upstreamArrives sampleReply,
        .upstreamRecv]).map (fun reaction => (replies reaction.outputs).length) = some 1 := by
    decide +kernel
  obtain ⟨mine, status, handling, answered⟩ := Machine.exists_run _ _ _ _ executes
  refine ⟨mine, status, handling, ?_⟩
  have parses : sampleFilter.hickory.fromBytes (sampleQuery.take maxDnsPacket) =
      .ok sampleQueryMessage := rfl
  have standard : sampleFilter.hickory.standardQuestion sampleQueryMessage =
      some sampleQuestion := rfl
  rcases standard_query_reply_is_sound rfl (.stop _) handling (by simp) parses standard with
    silent | refused | ⟨reply, mem, -, message, reads, -, -, -, free⟩
  · rw [silent] at answered
    cases answered
  · rw [refused]
    rfl
  · obtain rfl : reply = sampleReply.take maxDnsPacket := by
      simpa [upstreamReplies] using mem
    have message_eq : message = sampleReplyMessage := by
      have reads' : sampleFilter.hickory.fromBytes (sampleReply.take maxDnsPacket) =
          .ok sampleReplyMessage := rfl
      exact Except.ok.inj (reads.symm.trans reads')
    subst message_eq
    have blocked : sampleFilter.blocksName
        (sampleFilter.hickory.nameOf (ascii "doubleclick.net.")) = true := by
      decide +kernel
    have passes := free (ascii "doubleclick.net.") List.mem_cons_self
    rw [blocked] at passes
    cases passes

end DnsFilterConfig

end PrivacyEngine
