import PrivacyEngine.Dns.Doh

/-!
# What the DNS filter leaves alone

Unless its mode is to enforce, the policy changes no datagram: whatever it would have blocked, both
front ends forward the same queries and send the same replies as under any other policy that does
not enforce.  In every mode the UDP front end sends at most one reply for each packet, to the sender
of the packet and in the order of the packets.
-/

namespace PrivacyEngine

open Wire Reactive

/-- Effects that leave the process. -/
def DnsEffect.isTraffic : DnsEffect → Bool
  | .sendTo .. | .sendUpstream _ | .dohQuery .. => true
  | _ => false

/-- The messages a trace sends. -/
def dnsTraffic (effects : List DnsEffect) : List DnsEffect := effects.filter DnsEffect.isTraffic

@[simp] theorem dnsTraffic_append (left right : List DnsEffect) :
    dnsTraffic (left ++ right) = dnsTraffic left ++ dnsTraffic right := List.filter_append ..

@[simp] theorem dnsTraffic_metric (counter : DnsMetric) (effects : List DnsEffect) :
    dnsTraffic (.metric counter :: effects) = dnsTraffic effects := rfl

@[simp] theorem dnsTraffic_log (event : DnsLogEvent) (effects : List DnsEffect) :
    dnsTraffic (.log event :: effects) = dnsTraffic effects := rfl

@[simp] theorem dnsTraffic_nil : dnsTraffic [] = [] := rfl

/-- The policy does not enforce. -/
def PolicyEngine.Observes (engine : PolicyEngine) : Prop := engine.cfg.mode ≠ .enforce

namespace DnsFilterConfig

variable (config : DnsFilterConfig)

/-- The same front end under another policy. -/
def withPolicy (engine : PolicyEngine) : DnsFilterConfig := { config with policyEngine := engine }

@[simp] theorem dnsTraffic_record (host : Str) (entry : DnsReceipt) :
    dnsTraffic (config.record host entry) = [] := by
  unfold record
  split <;> rfl

variable {config}

/-- A policy that does not enforce answers no query. -/
theorem processDnsQuery_observes (observes : config.policyEngine.Observes) (query : Bytes) :
    (config.processDnsQuery query).2 = none ∧
      dnsTraffic (config.processDnsQuery query).1 = [] := by
  unfold processDnsQuery
  dsimp only
  split
  · exact ⟨rfl, rfl⟩
  · split
    · exact ⟨rfl, rfl⟩
    · rename_i message question standard
      split
      · rw [PolicyEngine.planForDnsQuery_mode]
        cases mode : config.policyEngine.cfg.mode with
        | enforce => exact absurd mode observes
        | reportOnly =>
            exact ⟨rfl, by simp⟩
        | disabled => exact ⟨rfl, rfl⟩
      · exact ⟨rfl, rfl⟩

/-- A policy that does not enforce refuses no reply. -/
theorem checkCnames_observes (observes : config.policyEngine.Observes) (forwarding : Forwarding)
    (targets : List Str) :
    (config.checkCnames forwarding targets).2 = false ∧
      dnsTraffic (config.checkCnames forwarding targets).1 = [] := by
  induction targets with
  | nil => exact ⟨rfl, rfl⟩
  | cons target targets ih =>
      rw [checkCnames]
      split
      · rw [PolicyEngine.planForDnsQuery_mode]
        cases mode : config.policyEngine.cfg.mode with
        | enforce => exact absurd mode observes
        | reportOnly =>
            exact ⟨ih.1, by simp [ih.2]⟩
        | disabled => exact ih
      · exact ih

variable (config) in
/-- Whether a reply is passed on: it matches the query, or the query has no key to match. -/
def passes (query reply : Bytes) : Bool :=
  match QueryKey.fromQueryBytes config.hickory query with
  | some key => key.matchesReplyBytes config.hickory reply
  | none => true

theorem dnsTraffic_deliver (observes : config.policyEngine.Observes) (forwarding : Forwarding)
    (reply : Bytes) :
    dnsTraffic (config.deliver forwarding reply) =
      if config.passes forwarding.query reply then [.sendTo forwarding.client reply] else [] := by
  have checked : dnsTraffic (deliver.checked config forwarding reply) =
      [.sendTo forwarding.client reply] := by
    obtain ⟨unanswered, silent⟩ :=
      checkCnames_observes observes forwarding (extractCnameTargets config.hickory reply)
    unfold deliver.checked
    dsimp only
    rw [unanswered, if_neg Bool.false_ne_true, dnsTraffic_append, silent]
    rfl
  cases keyed : QueryKey.fromQueryBytes config.hickory forwarding.query with
  | none =>
      simp only [deliver, passes, keyed]
      exact checked
  | some key =>
      simp only [deliver, passes, keyed]
      split
      · exact checked
      · rfl

variable (config) in
/-- How a packet that is not answered is forwarded: the message and the phase behind it. -/
def forwards (query : Bytes) (client : SocketAddr) : DnsEffect × DnsPhase :=
  let forwarding : Forwarding := ⟨query, client, config.queryNameOf query⟩
  match config.upstreamDoh with
  | some url => (.dohQuery url query, .querying url forwarding)
  | none => (.sendUpstream query, .sending forwarding)

theorem queryNameOf_withPolicy (engine : PolicyEngine) (query : Bytes) :
    (config.withPolicy engine).queryNameOf query = config.queryNameOf query := by
  cases parses : config.hickory.fromBytes query with
  | error error =>
      have parses' : (config.withPolicy engine).hickory.fromBytes query = .error error := parses
      simp only [queryNameOf, parses, parses']
  | ok message =>
      have parses' : (config.withPolicy engine).hickory.fromBytes query = .ok message := parses
      simp only [queryNameOf, parses, parses']
      rfl

theorem forwards_withPolicy (engine : PolicyEngine) (query : Bytes) (client : SocketAddr) :
    (config.withPolicy engine).forwards query client = config.forwards query client := by
  rw [forwards, forwards, queryNameOf_withPolicy]
  rfl

theorem onPacket_of_unanswered {query : Bytes}
    (unanswered : (config.processDnsQuery query).2 = none)
    (s : DnsState) (client : SocketAddr) :
    config.onPacket s query client =
      ⟨(config.processDnsQuery query).1 ++ [(config.forwards query client).1],
        .running { s with phase := (config.forwards query client).2 }⟩ := by
  unfold onPacket forwards
  split
  · rename_i answered
    rw [answered] at unanswered
    cases unanswered
  · rename_i processed
    rw [processed]
    cases config.upstreamDoh <;> rfl

/-- Handling an event sends the same and leads to the same state. -/
theorem reactEvent_observes {engine : PolicyEngine} (observes : config.policyEngine.Observes)
    (observes' : engine.Observes) (s : DnsState) (event : DnsEvent) :
    (config.reactEvent s event).status = ((config.withPolicy engine).reactEvent s event).status ∧
      dnsTraffic (config.reactEvent s event).outputs =
        dnsTraffic ((config.withPolicy engine).reactEvent s event).outputs := by
  have delivers : ∀ forwarding reply, dnsTraffic (config.deliver forwarding reply) =
      dnsTraffic ((config.withPolicy engine).deliver forwarding reply) := by
    intro forwarding reply
    rw [dnsTraffic_deliver observes, dnsTraffic_deliver observes']
    rfl
  obtain ⟨phase, queue⟩ := s
  cases event with
  | packet datagram client =>
      cases phase with
      | listening =>
          obtain ⟨unanswered, silent⟩ :=
            processDnsQuery_observes observes (datagram.take maxDnsPacket)
          obtain ⟨unanswered', silent'⟩ := @processDnsQuery_observes (config.withPolicy engine)
            observes' (datagram.take maxDnsPacket)
          have handled : ∀ config : DnsFilterConfig,
              config.reactEvent ⟨.listening, queue⟩ (.packet datagram client) =
                config.onPacket ⟨.listening, queue⟩ (datagram.take maxDnsPacket) client :=
            fun _ => rfl
          rw [handled, handled, onPacket_of_unanswered unanswered,
            onPacket_of_unanswered unanswered',
            dnsTraffic_append, dnsTraffic_append, silent, silent', forwards_withPolicy]
          exact ⟨rfl, rfl⟩
      | _ => exact ⟨rfl, rfl⟩
  | upstreamRecv =>
      cases phase with
      | receiving forwarding =>
          cases queue with
          | nil => exact ⟨rfl, rfl⟩
          | cons datagram queue => exact ⟨rfl, delivers _ _⟩
      | _ => exact ⟨rfl, rfl⟩
  | dohAnswer data =>
      cases phase with
      | querying url forwarding => exact ⟨rfl, delivers _ _⟩
      | _ => exact ⟨rfl, rfl⟩
  | _ => cases phase <;> exact ⟨rfl, rfl⟩

/-- Policies that do not enforce cannot be told apart by what the UDP front end sends: it makes the
same queries and replies, and waits in the same places, whatever they would block. -/
theorem observing_policies_send_the_same {engine : PolicyEngine}
    (observes : config.policyEngine.Observes) (observes' : engine.Observes) {s : DnsState}
    {events : List DnsEvent} {outputs : List DnsEffect} {status : Status DnsState Empty}
    (execution : config.runDnsFilter.Run s events outputs status) :
    ∃ outputs', (config.withPolicy engine).runDnsFilter.Run s events outputs' status ∧
      dnsTraffic outputs = dnsTraffic outputs' := by
  have reacts : ∀ s event,
      (config.runDnsFilter.react s event).status =
        ((config.withPolicy engine).runDnsFilter.react s event).status ∧
      (config.runDnsFilter.react s event).outputs.filter DnsEffect.isTraffic =
        ((config.withPolicy engine).runDnsFilter.react s event).outputs.filter
          DnsEffect.isTraffic := reactEvent_observes observes observes'
  have polls : ∀ s event, config.runDnsFilter.polls s event =
      (config.withPolicy engine).runDnsFilter.polls s event := fun _ _ => rfl
  exact execution.observed polls reacts

/-- A filter that only reports doubleclick.net. -/
def sampleReporter : DnsFilterConfig :=
  sampleFilter.withPolicy
    { cfg := { sampleFilter.policyEngine.cfg with mode := .reportOnly } }

/-- An exchange whose reply is an alias of the reported name. -/
def sampleExchange : List DnsEvent :=
  [.packet sampleQuery (ascii "127.0.0.1:5353"), .upstreamSent, .upstreamArrives sampleReply,
    .upstreamRecv]

/-- A reply that is reported is sent on as if the filter were disabled. -/
theorem sampleExchange_sends_the_same :
    ∃ outputs outputs' status,
      sampleReporter.runDnsFilter.Run {} sampleExchange outputs status ∧
      (sampleReporter.withPolicy { cfg := .defaultForMode .disabled }).runDnsFilter.Run {}
        sampleExchange outputs' status ∧
      dnsTraffic outputs = dnsTraffic outputs' ∧ (dnsTraffic outputs).length = 2 ∧
      .metric .dnsReportOnlyTotal ∈ outputs := by
  have executes : (sampleReporter.runDnsFilter.run {} sampleExchange).map
      (fun reaction => ((dnsTraffic reaction.outputs).length,
        decide (DnsEffect.metric .dnsReportOnlyTotal ∈ reaction.outputs))) = some (2, true) := by
    decide +kernel
  obtain ⟨outputs, status, execution, observed⟩ := Machine.exists_run _ _ _ _ executes
  obtain ⟨sends, reports⟩ := Prod.mk.inj observed
  have reporting : sampleReporter.policyEngine.Observes := nofun
  have disabled : PolicyEngine.Observes { cfg := .defaultForMode .disabled } := nofun
  obtain ⟨outputs', execution', same⟩ :=
    observing_policies_send_the_same reporting disabled execution
  exact ⟨outputs, outputs', status, execution, execution', same, sends, of_decide_eq_true reports⟩

end DnsFilterConfig

namespace DohServerConfig

variable {config : DohServerConfig}

/-- The same server under another policy. -/
def withPolicy (config : DohServerConfig) (engine : PolicyEngine) : DohServerConfig :=
  { config with policyEngine := engine }

/-- What a request makes the server send, count for the client and log by itself; what the filter
logs of its decisions is left out. -/
def visible (effects : List DohEffect) : List DohEffect :=
  effects.filter fun
    | .dns effect => effect.isTraffic
    | _ => true

theorem visible_map_dns (effects : List DnsEffect) :
    visible (effects.map .dns) = (dnsTraffic effects).map .dns := by
  rw [visible, List.filter_map]
  rfl

theorem visible_append (left right : List DohEffect) :
    visible (left ++ right) = visible left ++ visible right := List.filter_append ..

/-- Without enforcement, a request with a query is forwarded, and answered with what comes back. -/
theorem handleDohRequest_observes (observes : config.policyEngine.Observes) {request : DohRequest}
    {query : Bytes} (carried : config.queryBytes request = .ok query) (clientIp : Str)
    (upstream : DohUpstream) :
    (config.handleDohRequest request clientIp upstream).2 =
        .ok (match (config.forward query upstream).2 with
          | .error response => response
          | .ok none => dohTextResponse .badGateway (ascii "Upstream Timeout")
          | .ok (some reply) => dohDnsResponse .ok reply) ∧
      visible (config.handleDohRequest request clientIp upstream).1 =
        .recordQuery clientIp :: visible (config.forward query upstream).1 := by
  obtain ⟨unanswered, silent⟩ := DnsFilterConfig.processDnsQuery_observes observes query
  rcases processed : config.processDnsQuery query with ⟨effects, answer⟩
  rw [processed] at unanswered silent
  obtain rfl : answer = none := unanswered
  have first : visible (.recordQuery clientIp :: effects.map .dns ++
      (config.forward query upstream).1) =
      .recordQuery clientIp :: visible (config.forward query upstream).1 := by
    have counted : visible (.recordQuery clientIp :: effects.map .dns) =
        .recordQuery clientIp :: visible (effects.map .dns) := rfl
    rw [visible_append, counted, visible_map_dns, silent]
    rfl
  rw [handleDohRequest, carried]
  simp only [processed]
  rcases (config.forward query upstream).2 with response | (_ | reply)
  · exact ⟨rfl, first⟩
  · exact ⟨rfl, first⟩
  · simp only [checkCnameTargets_idle observes]
    refine ⟨rfl, ?_⟩
    rw [List.map_nil, List.append_nil]
    exact first

/-- Policies that do not enforce cannot be told apart by what the DoH front end responds, sends and
logs by itself, or by the clients it counts. -/
theorem observing_policies_respond_the_same {engine : PolicyEngine}
    (observes : config.policyEngine.Observes) (observes' : engine.Observes) (request : DohRequest)
    (clientIp : Str) (upstream : DohUpstream) :
    (config.handleDohRequest request clientIp upstream).2 =
        ((config.withPolicy engine).handleDohRequest request clientIp upstream).2 ∧
      visible (config.handleDohRequest request clientIp upstream).1 =
        visible ((config.withPolicy engine).handleDohRequest request clientIp upstream).1 := by
  have same : (config.withPolicy engine).queryBytes request = config.queryBytes request := rfl
  cases carried : config.queryBytes request with
  | error response =>
      rw [handleDohRequest, handleDohRequest, same, carried]
      exact ⟨rfl, rfl⟩
  | ok query =>
      obtain ⟨responds, shows⟩ := handleDohRequest_observes observes carried clientIp upstream
      obtain ⟨responds', shows'⟩ := @handleDohRequest_observes (config.withPolicy engine) observes'
        request query (same.trans carried) clientIp upstream
      exact ⟨responds.trans responds'.symm, shows.trans shows'.symm⟩

/-- A request for example.org. -/
def sampleRequest : DohRequest :=
  ⟨.post, some dnsMessageType, none, .ok DnsFilterConfig.sampleQuery⟩

/-- An upstream that makes it an alias of doubleclick.net. -/
def sampleUpstream : DohUpstream := ⟨.timeout, .datagram DnsFilterConfig.sampleReply⟩

/-- A reply with a blocked alias is responded, whether aliases are reported or nothing is. -/
theorem sampleDoh_responds_the_same :
    ((Twice.sampleDoh .reportOnly).handleDohRequest sampleRequest (ascii "10.0.0.2")
        sampleUpstream).2 = .ok (dohDnsResponse .ok DnsFilterConfig.sampleReply) ∧
    (((Twice.sampleDoh .reportOnly).withPolicy
      { cfg := .defaultForMode .disabled }).handleDohRequest
        sampleRequest (ascii "10.0.0.2") sampleUpstream).2 =
      .ok (dohDnsResponse .ok DnsFilterConfig.sampleReply) := by
  have reporting : (Twice.sampleDoh .reportOnly).policyEngine.Observes := nofun
  have disabled : PolicyEngine.Observes { cfg := .defaultForMode .disabled } := nofun
  have carried : (Twice.sampleDoh .reportOnly).queryBytes sampleRequest =
      .ok DnsFilterConfig.sampleQuery := rfl
  have responds := (handleDohRequest_observes reporting carried (ascii "10.0.0.2") sampleUpstream).1
  have same := (observing_policies_respond_the_same reporting disabled sampleRequest
    (ascii "10.0.0.2") sampleUpstream).1
  exact ⟨responds, same.symm.trans responds⟩

end DohServerConfig

namespace DnsFilterConfig

variable {config : DnsFilterConfig}

/-! ## Replies in order -/

section Replies

variable {forwarding : Forwarding} {s t : DnsState} {event : DnsEvent} {events : List DnsEvent}
  {outputs now : List DnsEffect}

/-- Senders of the packets received. -/
def senders (events : List DnsEvent) : List SocketAddr :=
  events.filterMap fun
    | .packet _ client => some client
    | _ => none

@[simp] theorem senders_append (left right : List DnsEvent) :
    senders (left ++ right) = senders left ++ senders right := List.filterMap_append

/-- Clients that replies are sent to. -/
def receivers (effects : List DnsEffect) : List SocketAddr := (replies effects).map Prod.fst

@[simp] theorem receivers_append (left right : List DnsEffect) :
    receivers (left ++ right) = receivers left ++ receivers right := by
  simp [receivers]

/-- The client that is still owed a reply. -/
def owed (s : DnsState) : List SocketAddr := (s.phase.forwarding?.map Forwarding.client).toList

theorem receivers_of_silent {effects : List DnsEffect} (silent : replies effects = []) :
    receivers effects = [] := by
  rw [receivers, silent, List.map_nil]

/-- A check that answers sends at most one refusal, to the client; one that does not is silent. -/
theorem receivers_checkCnames (forwarding : Forwarding) (targets : List Str) :
    (receivers (config.checkCnames forwarding targets).1).Sublist [forwarding.client] ∧
      ((config.checkCnames forwarding targets).2 = false →
        receivers (config.checkCnames forwarding targets).1 = []) := by
  induction targets with
  | nil => exact ⟨List.nil_sublist _, fun _ => rfl⟩
  | cons target targets ih =>
      rw [checkCnames]
      split
      · rw [PolicyEngine.planForDnsQuery_mode]
        cases config.policyEngine.cfg.mode with
        | enforce =>
            refine ⟨?_, fun unanswered => by cases unanswered⟩
            dsimp only
            split <;> simp [receivers, DnsEffect.sent]
        | reportOnly => simpa [receivers, DnsEffect.sent] using ih
        | disabled => exact ih
      · exact ih

theorem receivers_deliver (forwarding : Forwarding) (reply : Bytes) :
    (receivers (config.deliver forwarding reply)).Sublist [forwarding.client] := by
  have checked : (receivers (deliver.checked config forwarding reply)).Sublist
      [forwarding.client] := by
    obtain ⟨once, silent⟩ := config.receivers_checkCnames forwarding
      (extractCnameTargets config.hickory reply)
    unfold deliver.checked
    dsimp only
    split
    · exact once
    · rename_i unanswered
      rw [receivers_append, silent (by simpa using unanswered)]
      exact List.Sublist.refl _
  unfold deliver
  split
  · split
    · exact checked
    · exact List.nil_sublist _
  · exact checked

/-- A packet is answered at once, or its client is owed a reply. -/
theorem receivers_onPacket {query : Bytes} {client : SocketAddr} (listening : s.phase = .listening)
    (handles : config.onPacket s query client = ⟨now, .running t⟩) :
    receivers now ++ owed t = [client] := by
  cases answered : (config.processDnsQuery query).2 with
  | none =>
      rw [onPacket_of_unanswered answered] at handles
      cases handles
      have silent := receivers_of_silent (config.replies_processDnsQuery query)
      rw [receivers_append, silent, forwards]
      cases config.upstreamDoh <;> rfl
  | some response =>
      have processed : config.processDnsQuery query =
          ((config.processDnsQuery query).1, some response) := Prod.ext rfl answered
      rw [onPacket, processed] at handles
      cases handles
      rw [receivers_append, receivers_of_silent (config.replies_processDnsQuery query), owed,
        listening]
      rfl

/-- What is sent or still owed behind an event was owed before it or is owed for its packet. -/
theorem Turn.owes (turn : config.Turn s event now t) :
    (receivers now ++ owed t).Sublist (owed s ++ senders [event]) := by
  have busy_owed : ∀ {forwarding}, s.phase.forwarding? = some forwarding →
      owed s = [forwarding.client] := fun busy => by rw [owed, busy]; rfl
  have fulfilled : ∀ {forwarding reply queue}, s.phase.forwarding? = some forwarding →
      (receivers (config.deliver forwarding reply) ++ owed ⟨.listening, queue⟩).Sublist
        (owed s ++ senders [event]) := by
    intro forwarding reply queue busy
    rw [busy_owed busy]
    exact ((receivers_deliver forwarding reply).append (List.nil_sublist [])).trans
      (List.append_nil [forwarding.client] ▸ List.sublist_append_left _ _)
  cases turn with
  | arrives datagram => exact List.sublist_append_left _ _
  | packet listening handles =>
      rw [receivers_onPacket listening handles]
      exact List.sublist_append_right _ _
  | idle listening silent =>
      rw [receivers_of_silent silent]
      exact List.sublist_append_left _ _
  | sent busy =>
      rw [busy_owed busy, owed]
      simp only [DnsPhase.forwarding?]
      exact List.sublist_append_left _ _
  | abandon busy silent =>
      rw [receivers_of_silent silent]
      exact List.nil_sublist _
  | receive busy front => exact fulfilled busy
  | answer busy => exact fulfilled busy

/-- Replies are sent and owed to the senders of the packets, in the order of the packets. -/
theorem receivers_of_run (execution : config.runDnsFilter.Run s events outputs (.running t)) :
    (receivers outputs ++ owed t).Sublist (owed s ++ senders events) := by
  refine execution.history (fun events outputs t =>
    (receivers outputs ++ owed t).Sublist (owed s ++ senders events))
    (by simp [receivers, senders]) ?_
  intro events outputs state event now next front ordered polled reacts
  have owes := (turn_of_react polled reacts).owes
  rw [receivers_append, senders_append, List.append_assoc]
  refine ((List.Sublist.refl _).append owes).trans ?_
  rw [← List.append_assoc, ← List.append_assoc]
  exact ordered.append (List.Sublist.refl _)

variable (config) in
/-- What a run does from a packet of a client on, up to some point in front of the next packet. -/
def Brings (events : List DnsEvent) (outputs : List DnsEffect) (client : SocketAddr)
    (mine : List DnsEffect) : Prop :=
  ∃ front datagram turn rest before after s t,
    events = front ++ (.packet datagram client :: turn) ++ rest ∧ senders turn = [] ∧
    outputs = before ++ mine ++ after ∧
    config.runDnsFilter.Run {} front before (.running s) ∧
    config.runDnsFilter.Run s (.packet datagram client :: turn) mine (.running t)

/-- A packet is read while the loop owes nothing. -/
theorem owed_of_packet {datagram : Bytes} {client : SocketAddr}
    (execution : config.runDnsFilter.Run s (.packet datagram client :: events) outputs
      (.running t)) : owed s = [] := by
  cases execution with
  | step polled reacts later =>
      have listening := (packet_polled polled).1
      rw [owed, listening]
      rfl

/-- In every mode, replies are sent in the order of the packets, and each packet brings at most one
reply, sent to its sender. -/
theorem replies_in_order (execution : config.runDnsFilter.Run {} events outputs (.running s)) :
    (receivers outputs ++ owed s).Sublist (senders events) ∧
      ∀ client mine, config.Brings events outputs client mine →
        (receivers mine).Sublist [client] := by
  refine ⟨receivers_of_run execution, ?_⟩
  rintro client mine ⟨front, datagram, turn, rest, before, after, s, t, -, alone, -, -, handling⟩
  have sent := receivers_of_run handling
  have single : senders (.packet datagram client :: turn) = [client] := by
    rw [← List.singleton_append, senders_append, alone]
    rfl
  rw [owed_of_packet handling, single, List.nil_append] at sent
  exact (List.sublist_append_left _ _).trans sent

/-- One of two packets is answered, and the other is still owed a reply. -/
theorem sampleExchange_replies_in_order :
    ∃ outputs s, sampleFilter.runDnsFilter.Run {}
        (sampleExchange ++ [.packet sampleQuery (ascii "127.0.0.1:5354")]) outputs (.running s) ∧
      receivers outputs = [ascii "127.0.0.1:5353"] ∧ owed s = [ascii "127.0.0.1:5354"] ∧
      (receivers outputs ++ owed s).Sublist
        [ascii "127.0.0.1:5353", ascii "127.0.0.1:5354"] ∧
      ∀ client mine, sampleFilter.Brings
          (sampleExchange ++ [.packet sampleQuery (ascii "127.0.0.1:5354")]) outputs client mine →
        (receivers mine).Sublist [client] := by
  have executes : (sampleFilter.runDnsFilter.run {}
      (sampleExchange ++ [.packet sampleQuery (ascii "127.0.0.1:5354")])).map
      (fun reaction => (receivers reaction.outputs, reaction.status.state?.map owed)) =
        some ([ascii "127.0.0.1:5353"], some [ascii "127.0.0.1:5354"]) := by
    decide +kernel
  obtain ⟨outputs, status, execution, observed⟩ := Machine.exists_run _ _ _ _ executes
  obtain ⟨answered, owes⟩ := Prod.mk.inj observed
  cases status with
  | running s => exact ⟨outputs, s, execution, answered, Option.some.inj owes,
      replies_in_order execution⟩
  | halted result => cases result

end Replies

end DnsFilterConfig

end PrivacyEngine
