import PrivacyEngine.Dns.Turns

/-!
# Stale replies

A query reads one datagram from the shared upstream queue and gives up when it does not match, even
if the matching one is already behind it.  So a reply that came too late for its own query is read
by a later one, whose reply stays for the next.
-/

namespace PrivacyEngine

open Wire Reactive

namespace DnsFilterConfig

/-- A query that is forwarded in some run, its turn up to where the loop listens again, and what
happens then. -/
structure Exchange (config : DnsFilterConfig) where
  front : List DnsEvent
  seen : List DnsEffect
  s : DnsState
  datagram : Bytes
  client : SocketAddr
  turn : List DnsEvent
  mine : List DnsEffect
  t : DnsState
  rest : List DnsEvent
  query : DnsMessage config.hickory.Name
  question : DnsQuestion config.hickory.Name
  before : config.runDnsFilter.Run {} front seen (.running s)
  handling : config.runDnsFilter.Run s (.packet datagram client :: turn) mine (.running t)
  after : ∃ later status, config.runDnsFilter.Run t rest later status
  alone : ∀ datagram client, .packet datagram client ∉ turn
  done : t.phase = .listening
  parses : config.hickory.fromBytes (datagram.take maxDnsPacket) = .ok query
  standard : config.hickory.standardQuestion query = some question
  forwarded : (config.processDnsQuery (datagram.take maxDnsPacket)).2 = none

namespace Exchange

variable {config : DnsFilterConfig} (x : config.Exchange)

def key : QueryKey :=
  ⟨x.query.header.id, config.hickory.nameOf x.question.name, x.question.queryType,
    x.question.queryClass⟩

def forwarding : Forwarding :=
  ⟨x.datagram.take maxDnsPacket, x.client, config.queryNameOf (x.datagram.take maxDnsPacket)⟩

/-- The datagrams that wait when the query comes or arrive before its deadline, in their order. -/
def offered : List Bytes := available x.s (beforeTimeout (x.turn ++ x.rest))

def Matches (reply : Bytes) : Prop := x.key.matchesReplyBytes config.hickory reply = true

/-- A reply that matches the query is there in time. -/
def Offered : Prop := ∃ reply ∈ x.offered, x.Matches reply

/-- The client is sent a matching reply, or a refusal for a blocked CNAME target of one. -/
def Answered : Prop :=
  ∃ reply ∈ x.offered, x.Matches reply ∧
    (replies x.mine = [(x.client, reply)] ∨
      replies x.mine = [(x.client, config.hickory.buildNxdomain x.query)] ∧
        ∃ target ∈ extractCnameTargets config.hickory reply, config.blocksName target = true)

/-- The socket does not fail, and the first datagram is the matching one. -/
def Prompt : Prop :=
  (∀ event ∈ x.turn, event.failing = false) ∧ ∃ reply ∈ x.offered.head?, x.Matches reply

end Exchange

variable {config : DnsFilterConfig} {forwarding : Forwarding}

/-! ## One datagram -/

theorem checkCnames_forwarded {query : DnsMessage config.hickory.Name}
    (parses : config.hickory.fromBytes forwarding.query = .ok query) (targets : List Str) :
    (config.checkCnames forwarding targets).2 = true ∧
        replies (config.checkCnames forwarding targets).1 =
          [(forwarding.client, config.hickory.buildNxdomain query)] ∧
        (∃ target ∈ targets, config.blocksName target = true) ∨
      (config.checkCnames forwarding targets).2 = false ∧
        replies (config.checkCnames forwarding targets).1 = [] := by
  induction targets with
  | nil => exact .inr ⟨rfl, rfl⟩
  | cons target targets ih =>
      have later : (config.checkCnames forwarding targets).2 = true ∧
            replies (config.checkCnames forwarding targets).1 =
              [(forwarding.client, config.hickory.buildNxdomain query)] ∧
            (∃ target' ∈ target :: targets, config.blocksName target' = true) ∨
          (config.checkCnames forwarding targets).2 = false ∧
            replies (config.checkCnames forwarding targets).1 = [] :=
        ih.imp_left fun ⟨answered, refusal, other, mem, blocks⟩ =>
          ⟨answered, refusal, other, List.mem_cons_of_mem _ mem, blocks⟩
      rw [checkCnames]
      split
      · rename_i blocks
        split
        · exact .inl ⟨rfl, by simp [parses, DnsEffect.sent], target, List.mem_cons_self, blocks⟩
        · simpa [DnsEffect.sent] using later
        · exact later
      · exact later

/-- A datagram that does not match is dropped, and another one is sent or refused. -/
theorem replies_deliver_of_key {query : DnsMessage config.hickory.Name} {key : QueryKey}
    (parses : config.hickory.fromBytes forwarding.query = .ok query)
    (keyed : QueryKey.fromQueryBytes config.hickory forwarding.query = some key) (reply : Bytes) :
    key.matchesReplyBytes config.hickory reply = false ∧
        replies (config.deliver forwarding reply) = [] ∨
      key.matchesReplyBytes config.hickory reply = true ∧
        (replies (config.deliver forwarding reply) = [(forwarding.client, reply)] ∨
          replies (config.deliver forwarding reply) =
              [(forwarding.client, config.hickory.buildNxdomain query)] ∧
            ∃ target ∈ extractCnameTargets config.hickory reply,
              config.blocksName target = true) := by
  rw [deliver, keyed]
  dsimp only
  split
  · rename_i agrees
    refine .inr ⟨agrees, ?_⟩
    unfold deliver.checked
    dsimp only
    rcases checkCnames_forwarded parses (extractCnameTargets config.hickory reply) with
      ⟨answered, refusal, blocked⟩ | ⟨unanswered, silent⟩
    · rw [answered, if_pos rfl]
      exact .inr ⟨refusal, blocked⟩
    · rw [unanswered, if_neg Bool.false_ne_true]
      exact .inl (by simp [silent, DnsEffect.sent])
  · rename_i differs
    exact .inl ⟨Bool.eq_false_iff.mpr differs, rfl⟩

/-! ## One turn -/

namespace Exchange

variable (x : config.Exchange)

/-- What the turn sends is decided by how it ends. -/
theorem outcome (plain : config.upstreamDoh = none) :
    ∃ waiting later, waiting.upstreamQueue = x.s.upstreamQueue ∧
      (∀ url forwarding, waiting.phase ≠ .querying url forwarding) ∧
      replies x.mine = replies (decided later) ∧
      Outcome config x.forwarding waiting x.turn later := by
  obtain ⟨effects, ⟨response, answers, -⟩ |
      ⟨passes, waiting, later, queue, phase, same, outcome⟩⟩ :=
    handled_packet x.handling x.alone x.done
  · have forwarded := x.forwarded
    rw [answers] at forwarded
    cases forwarded
  · refine ⟨waiting, later, queue, phase plain, ?_, outcome⟩
    have silent := replies_processDnsQuery config (x.datagram.take maxDnsPacket)
    rw [passes] at silent
    rw [← replies_decided, same, replies_append, replies_decided, silent, List.nil_append]

theorem key_eq : QueryKey.fromQueryBytes config.hickory x.forwarding.query = some x.key := by
  simp [QueryKey.fromQueryBytes, forwarding, x.parses, x.standard, key]

/-- Where a matching reply is there in time, the client is answered exactly if it comes first. -/
theorem answered_iff_prompt (plain : config.upstreamDoh = none) (offered : x.Offered) :
    x.Answered ↔ x.Prompt := by
  have unanswered (silent : replies x.mine = []) : ¬ x.Answered := by
    rintro ⟨reply, -, -, sent | ⟨refused, -⟩⟩
    · rw [silent] at sent
      cases sent
    · rw [silent] at refused
      cases refused
  obtain ⟨waiting, later, queue, phase, mine_replies, outcome⟩ := x.outcome plain
  have same (events : List DnsEvent) : available x.s events = available waiting events := by
    rw [available, available, queue]
  cases outcome with
  | failed mem failing nothing silent =>
      refine iff_of_false (unanswered ?_) ?_
      · rw [mine_replies, silent, replies_nil]
      · rintro ⟨works, -⟩
        rw [works _ mem] at failing
        cases failing
  | timedOut mem empty nothing silent =>
      obtain ⟨reply, listed, -⟩ := offered
      rw [Exchange.offered, beforeTimeout_append_of_mem mem, same, empty] at listed
      cases listed
  | answered asked => exact absurd asked (phase _ _)
  | @received first others front works reads delivered =>
      have delivers : replies x.mine = replies (config.deliver x.forwarding first) := by
        rw [mine_replies, delivered, replies_decided]
      have head : x.offered.head? = some first := by
        obtain ⟨later, more⟩ := beforeTimeout_prefix_append x.turn x.rest
        rw [Exchange.offered, same, ← more, available, upstreamReplies_append, ← List.append_assoc]
        rw [available] at front
        rw [front]
        rfl
      rcases replies_deliver_of_key x.parses x.key_eq first with ⟨differs, dropped⟩ | ⟨agrees, sent⟩
      · refine iff_of_false (unanswered (delivers.trans dropped)) ?_
        rintro ⟨-, reply, mem, agrees⟩
        obtain rfl : first = reply := by simpa [head] using mem
        rw [Matches, differs] at agrees
        cases agrees
      · rw [← delivers] at sent
        exact iff_of_true ⟨first, List.mem_of_mem_head? head, agrees, sent⟩
          ⟨works, first, head, agrees⟩

/-- In every run over plain UDP, a query for which a matching reply is there in time is answered
exactly if the socket works and no other datagram comes first. -/
theorem offered_reply_answers_iff (plain : config.upstreamDoh = none) :
    (x.Offered → x.Answered) ↔ (x.Offered → x.Prompt) :=
  ⟨fun answers offered => (x.answered_iff_prompt plain offered).mp (answers offered),
    fun prompt offered => (x.answered_iff_prompt plain offered).mpr (prompt offered)⟩

/-! ### A reply that comes too late -/

/-- The same query under another identifier. -/
def sampleNextQuery : Bytes :=
  [0x43, 0x21, 0x01, 0x00, 0, 1, 0, 0, 0, 0, 0, 0] ++
    7 :: ascii "example" ++ 3 :: ascii "org" ++ [0, 0, 1, 0, 1]

/-- The address of example.org. -/
def sampleNextReply : Bytes :=
  [0x43, 0x21, 0x81, 0x80, 0, 1, 0, 1, 0, 0, 0, 0] ++
    7 :: ascii "example" ++ 3 :: ascii "org" ++ [0, 0, 1, 0, 1] ++
    [0xC0, 0x0C, 0, 1, 0, 1, 0, 0, 0, 60, 0, 4, 192, 0, 2, 7]

def sampleNextQueryMessage : DnsMessage Str :=
  { sampleQueryMessage with header := { sampleQueryMessage.header with id := 0x4321 } }

def sampleNextReplyMessage : DnsMessage Str where
  header := { sampleReplyMessage.header with id := 0x4321 }
  queries := [sampleQuestion]
  answers := [.other [192, 0, 2, 7]]

def sampleStaleFilter : DnsFilterConfig :=
  { sampleFilter with
    hickory :=
      { sampleHickory with
        fromBytes := fun bytes =>
          if bytes = sampleNextQuery then .ok sampleNextQueryMessage
          else if bytes = sampleNextReply then .ok sampleNextReplyMessage
          else sampleHickory.fromBytes bytes } }

def sampleClient : SocketAddr := ascii "127.0.0.1:6000"

/-- The first query times out, and its reply arrives behind the deadline. -/
def sampleLate : List DnsEvent :=
  [.packet sampleQuery sampleClient, .upstreamSent, .upstreamTimeout, .upstreamArrives sampleReply]

theorem sampleNextReply_matches :
    QueryKey.matchesReplyBytes sampleStaleFilter.hickory
      ⟨0x4321, sampleStaleFilter.hickory.nameOf (ascii "example.org."), 1, 1⟩ sampleNextReply =
      true := by
  decide +kernel

/-- The turn of the next query. -/
def sampleTurn : List DnsEvent :=
  [.upstreamSent, .upstreamArrives sampleNextReply, .upstreamRecv]

theorem sampleNextReply_available (queue : List Bytes) :
    sampleNextReply ∈ available ⟨.listening, queue⟩ (beforeTimeout (sampleTurn ++ [])) := by
  have short : sampleNextReply.take maxDnsPacket = sampleNextReply := by decide +kernel
  simp [available, sampleTurn, beforeTimeout, upstreamReplies, short]

/-- The matching reply of the next query arrives behind the stale one. -/
theorem stale_reply_starves :
    ∃ x : sampleStaleFilter.Exchange, x.front = sampleLate ∧ x.datagram = sampleNextQuery ∧
      x.turn = sampleTurn ∧ x.Offered ∧ ¬ x.Answered := by
  obtain ⟨seen, waiting, before, reached⟩ := Machine.exists_run sampleStaleFilter.runDnsFilter {}
    sampleLate (fun reaction => reaction.status.state?)
    (show _ = some (some ⟨.listening, [sampleReply]⟩) by decide +kernel)
  obtain rfl := Status.eq_running reached
  obtain ⟨mine, status, handling, observed⟩ := Machine.exists_run sampleStaleFilter.runDnsFilter
    ⟨.listening, [sampleReply]⟩
    (.packet sampleNextQuery sampleClient :: sampleTurn)
    (fun reaction => (replies reaction.outputs, reaction.status.state?))
    (show _ = some ([], some ⟨.listening, [sampleNextReply]⟩) by decide +kernel)
  obtain ⟨silent, running⟩ := Prod.mk.inj observed
  obtain rfl := Status.eq_running running
  refine ⟨⟨sampleLate, seen, _, sampleNextQuery, sampleClient, sampleTurn, mine, _, [],
    sampleNextQueryMessage, sampleQuestion, before, handling, ⟨[], _, .stop _⟩,
    by simp [sampleTurn], rfl, rfl, rfl, by decide +kernel⟩, rfl, rfl, rfl, ?_, ?_⟩
  · exact ⟨sampleNextReply, sampleNextReply_available _, sampleNextReply_matches⟩
  · rintro ⟨reply, -, -, sent | ⟨refused, -⟩⟩
    · rw [silent] at sent
      cases sent
    · rw [silent] at refused
      cases refused

theorem sampleExchange_answered :
    ∃ x : sampleStaleFilter.Exchange, x.front = [] ∧ x.datagram = sampleNextQuery ∧
      x.Offered ∧ x.Answered := by
  obtain ⟨mine, status, handling, reached⟩ := Machine.exists_run sampleStaleFilter.runDnsFilter {}
    (.packet sampleNextQuery sampleClient :: sampleTurn)
    (fun reaction => reaction.status.state?)
    (show _ = some (some ⟨.listening, []⟩) by decide +kernel)
  obtain rfl := Status.eq_running reached
  let x : sampleStaleFilter.Exchange :=
    ⟨[], [], {}, sampleNextQuery, sampleClient, sampleTurn, mine, _, [], sampleNextQueryMessage,
      sampleQuestion, .stop _, handling, ⟨[], _, .stop _⟩, by simp [sampleTurn], rfl, rfl, rfl,
      by decide +kernel⟩
  have offered : x.Offered :=
    ⟨sampleNextReply, sampleNextReply_available [], sampleNextReply_matches⟩
  have prompt : x.Prompt :=
    ⟨by simp [x, sampleTurn, DnsEvent.failing], sampleNextReply, rfl, sampleNextReply_matches⟩
  exact ⟨x, rfl, rfl, offered, (offered_reply_answers_iff x rfl).mpr (fun _ => prompt) offered⟩

end Exchange

end DnsFilterConfig

end PrivacyEngine
