import PrivacyEngine.Dns.Starvation

/-!
# The DoH front end of the DNS filter

A request carries one query in its body or in its URL.  The filter's own decision is shared with the
UDP front end; forwarding and the check of CNAME targets are written a second time, over a socket
per request.
-/

namespace PrivacyEngine

open Wire Reactive

/-! ## Requests and responses -/

inductive HttpMethod where
  | post
  | get
  | other
  deriving DecidableEq

/-- What the handler reads of a request; collecting the body may fail. -/
structure DohRequest where
  method : HttpMethod
  contentType : Option Bytes
  uriQuery : Option Str
  body : Except Str Bytes

inductive StatusCode where
  | ok
  | badRequest
  | methodNotAllowed
  | unsupportedMediaType
  | badGateway
  deriving DecidableEq

structure DohResponse where
  status : StatusCode
  contentType : Str
  body : Bytes
  deriving DecidableEq

def dnsMessageType : Str := ascii "application/dns-message"

def dohDnsResponse (status : StatusCode) (body : Bytes) : DohResponse :=
  ⟨status, dnsMessageType, body⟩

def dohTextResponse (status : StatusCode) (msg : Str) : DohResponse :=
  ⟨status, ascii "text/plain; charset=utf-8", msg⟩

/-- Log events of the server, named after their `event` field. -/
inductive DohLogEvent where
  | dohServerUpstreamDohError (error : Str)
  | dohServerUpstreamTimeout
  | dohServerUpstreamBindError (error : Str)
  | dohServerUpstreamConnectError (error : Str)
  | dohServerUdpSendError (error : Str)
  | dohServerUdpRecvError (error : Str)
  deriving DecidableEq

inductive DohEffect where
  | recordQuery (clientIp : Str)
  | dns (effect : DnsEffect)
  | log (event : DohLogEvent)
  deriving DecidableEq

/-- What a DoH upstream comes to. -/
inductive DohAnswer where
  | data (bytes : Bytes)
  | error (error : Str)
  | timeout

/-- What a UDP upstream comes to, over a socket of the request's own. -/
inductive UdpAnswer where
  | bindError (error : Str)
  | connectError (error : Str)
  | sendError (error : Str)
  | recvError (error : Str)
  | datagram (bytes : Bytes)
  | timeout

structure DohUpstream where
  doh : DohAnswer
  udp : UdpAnswer

/-- The server: what it shares with the UDP filter, and the decoder of unpadded URL-safe base 64. -/
structure DohServerConfig extends DnsFilterConfig where
  decode : Str → Option Bytes

/-- Value of the first `dns` parameter. -/
def dnsParam (query : Str) : Option Str :=
  (query.splitOn 38).findSome? fun pair =>
    (splitOnce 61 pair).bind fun (k, v) => if k = ascii "dns" then some v else none

namespace DohServerConfig

variable (config : DohServerConfig)

/-- The query of a request, or what the handler returns without one. -/
def queryBytes (request : DohRequest) : Except (Except Str DohResponse) Bytes :=
  match request.method with
  | .post =>
      if request.contentType ≠ some dnsMessageType then
        .error (.ok (dohTextResponse .unsupportedMediaType (ascii "Unsupported Media Type")))
      else request.body.mapError .error
  | .get =>
      match dnsParam (request.uriQuery.getD []) with
      | none => .error (.ok (dohTextResponse .badRequest (ascii "Missing 'dns' query parameter")))
      | some b64 =>
          match config.decode b64 with
          | some bytes => .ok bytes
          | none => .error (.ok (dohTextResponse .badRequest (ascii "Invalid base64url DNS query")))
  | .other => .error (.ok (dohTextResponse .methodNotAllowed (ascii "Method Not Allowed")))

/-- The reply from upstream, if there is one; a socket that cannot be used ends the request. -/
def forward (query : Bytes) (upstream : DohUpstream) :
    List DohEffect × Except DohResponse (Option Bytes) :=
  let upstreamError := dohTextResponse .badGateway (ascii "Upstream Error")
  match config.upstreamDoh with
  | some url =>
      match upstream.doh with
      | .data bytes => ([.dns (.dohQuery url query)], .ok (some bytes))
      | .error error =>
          ([.dns (.dohQuery url query), .log (.dohServerUpstreamDohError error)], .ok none)
      | .timeout => ([.dns (.dohQuery url query), .log .dohServerUpstreamTimeout], .ok none)
  | none =>
      match upstream.udp with
      | .bindError error => ([.log (.dohServerUpstreamBindError error)], .error upstreamError)
      | .connectError error => ([.log (.dohServerUpstreamConnectError error)], .error upstreamError)
      | .sendError error =>
          ([.dns (.sendUpstream query), .log (.dohServerUdpSendError error)], .error upstreamError)
      | .recvError error =>
          ([.dns (.sendUpstream query), .log (.dohServerUdpRecvError error)], .ok none)
      | .datagram bytes => ([.dns (.sendUpstream query)], .ok (some (bytes.take maxDnsPacket)))
      | .timeout => ([.dns (.sendUpstream query), .log .dohServerUpstreamTimeout], .ok none)

/-- The check of the CNAME targets in order: its effects, and the refusal. -/
def checkCnameTargets (query : Bytes) : List Str → List DnsEffect × Option Bytes
  | [] => ([], none)
  | target :: targets =>
      let plan := config.policyEngine.planForDnsQuery target
      let later := checkCnameTargets query targets
      if plan.shouldBlock && plan.mode == .enforce then
        let counted :=
          .metric .dnsCnameUncloakedTotal :: config.record target .dnsCnameUncloaked
        match config.hickory.fromBytes query with
        | .ok original => (counted, some (config.hickory.buildNxdomain original))
        | .error _ => (counted ++ later.1, later.2)
      else later

def handleDohRequest (request : DohRequest) (clientIp : Str) (upstream : DohUpstream) :
    List DohEffect × Except Str DohResponse :=
  match config.queryBytes request with
  | .error response => ([], response)
  | .ok query =>
      match config.processDnsQuery query with
      | (effects, some response) =>
          (.recordQuery clientIp :: effects.map .dns, .ok (dohDnsResponse .ok response))
      | (effects, none) =>
          let before :=
            .recordQuery clientIp :: effects.map .dns ++ (config.forward query upstream).1
          match (config.forward query upstream).2 with
          | .error response => (before, .ok response)
          | .ok none => (before, .ok (dohTextResponse .badGateway (ascii "Upstream Timeout")))
          | .ok (some reply) =>
              let check := config.checkCnameTargets query (extractCnameTargets config.hickory reply)
              (before ++ check.1.map .dns, .ok (dohDnsResponse .ok (check.2.getD reply)))

end DohServerConfig

/-! ## The two front ends -/

def dnsEffects (effects : List DohEffect) : List DnsEffect :=
  effects.filterMap fun
    | .dns effect => some effect
    | _ => none

/-- The DNS messages among the responses. -/
def dnsAnswers : Except Str DohResponse → List Bytes
  | .ok response => if response.contentType = dnsMessageType then [response.body] else []
  | .error _ => []

/-- In enforce mode, the first question of a standard query asks for a blocked name. -/
def DnsFilterConfig.Refuses (config : DnsFilterConfig) (query : Bytes) : Prop :=
  config.policyEngine.cfg.mode = .enforce ∧
    ∃ message question, config.hickory.fromBytes query = .ok message ∧
      config.hickory.standardQuestion message = some question ∧
      config.blocksName (config.hickory.nameOf question.name) = true

theorem DnsFilterConfig.refuses_iff (config : DnsFilterConfig) (query : Bytes) :
    config.Refuses query ↔ (config.processDnsQuery query).2.isSome = true := by
  unfold Refuses processDnsQuery blocksName
  cases parses : config.hickory.fromBytes query with
  | error error => simp
  | ok message =>
      cases standard : config.hickory.standardQuestion message with
      | none => simp [standard]
      | some question =>
          simp only [standard, Except.ok.injEq, PolicyEngine.planForDnsQuery_mode]
          by_cases blocks : (config.policyEngine.planForDnsQuery
            (config.hickory.nameOf question.name)).shouldBlock = true
          · cases mode : config.policyEngine.cfg.mode <;> simp [standard, blocks]
          · simp [standard, blocks]

namespace DohServerConfig

/-- One query in both front ends, over the same upstream reply: in any state of the UDP loop, from
its packet to where the loop listens again, and in a request. -/
structure Twice (config : DohServerConfig) where
  s : DnsState
  datagram : Bytes
  client : SocketAddr
  turn : List DnsEvent
  mine : List DnsEffect
  t : DnsState
  request : DohRequest
  clientIp : Str
  upstream : DohUpstream
  handling : config.runDnsFilter.Run s (.packet datagram client :: turn) mine (.running t)
  alone : ∀ datagram client, .packet datagram client ∉ turn
  done : t.phase = .listening
  carried : config.queryBytes request = .ok (datagram.take maxDnsPacket)
  same_reply : (config.processDnsQuery (datagram.take maxDnsPacket)).2 = none →
    ((config.forward (datagram.take maxDnsPacket) upstream).2.toOption.bind id) =
      readReply s.upstreamQueue turn

namespace Twice

variable {config : DohServerConfig} (x : config.Twice)

def query : Bytes := x.datagram.take maxDnsPacket

/-- The reply, if the query is forwarded and there is one. -/
def reply : Option Bytes := readReply x.s.upstreamQueue x.turn

def response : List DohEffect × Except Str DohResponse :=
  config.handleDohRequest x.request x.clientIp x.upstream

/-- The reply is for another query. -/
def Mismatched (reply : Bytes) : Prop :=
  ∃ key, QueryKey.fromQueryBytes config.hickory x.query = some key ∧
    key.matchesReplyBytes config.hickory reply = false

/-- Both return the same DNS answers, refuse a reply for another query, and count the same. -/
structure SameDecision : Prop where
  answers : (replies x.mine).map Prod.snd = dnsAnswers x.response.2
  refused : (config.processDnsQuery x.query).2 = none → ∀ reply ∈ x.reply, x.Mismatched reply →
    replies x.mine = [] ∧ dnsAnswers x.response.2 = []
  counts : CountAlike x.mine (dnsEffects x.response.1)

/-- The name asked for is blocked; or a reply that comes is for the query, and if one of its CNAME
targets is blocked, then in enforce mode, for a query that can be read, and the receipts of the
first one, wherever they are kept, are those of the name asked for. -/
def Alike : Prop :=
  ¬ config.Refuses x.query → ∀ reply ∈ x.reply, ¬ x.Mismatched reply ∧
    ∀ target, (extractCnameTargets config.hickory reply).find? config.blocksName = some target →
      config.policyEngine.cfg.mode = .enforce ∧
        (∃ message, config.hickory.fromBytes x.query = .ok message) ∧
        (config.receiptsStore = false ∨
          normalizeHost target = normalizeHost (config.queryNameOf x.query))

end Twice

/-! ## The check of CNAME targets -/

section Check

variable {config : DohServerConfig} (forwarding : DnsFilterConfig.Forwarding)
  {targets : List Str} {target : Str}

theorem checks_of_unblocked (query : Bytes) (unblocked : targets.find? config.blocksName = none) :
    config.checkCnames forwarding targets = ([], false) ∧
      config.checkCnameTargets query targets = ([], none) := by
  induction targets with
  | nil => exact ⟨rfl, rfl⟩
  | cons first targets ih =>
      rw [List.find?_cons] at unblocked
      split at unblocked
      · cases unblocked
      · rename_i passes
        obtain ⟨udp, doh⟩ := ih unblocked
        simp only [DnsFilterConfig.blocksName] at passes
        simp [DnsFilterConfig.checkCnames, checkCnameTargets, passes, udp, doh]

/-- In enforce mode the first blocked target decides; only a query that can be read is refused. -/
theorem checks_enforce (enforce : config.policyEngine.cfg.mode = .enforce)
    (found : targets.find? config.blocksName = some target)
    {message : DnsMessage config.hickory.Name}
    (parses : config.hickory.fromBytes forwarding.query = .ok message) :
    config.checkCnames forwarding targets =
        (.metric .dnsCnameUncloakedTotal ::
          config.record forwarding.queryName .dnsCnameUncloaked ++
          [.log (.dnsCnameUncloaked forwarding.queryName target),
            .sendTo forwarding.client (config.hickory.buildNxdomain message)], true) ∧
      config.checkCnameTargets forwarding.query targets =
        (.metric .dnsCnameUncloakedTotal :: config.record target .dnsCnameUncloaked,
          some (config.hickory.buildNxdomain message)) := by
  induction targets with
  | nil => cases found
  | cons first targets ih =>
      rw [List.find?_cons] at found
      split at found
      · rename_i blocks
        cases found
        simp only [DnsFilterConfig.blocksName] at blocks
        simp [DnsFilterConfig.checkCnames, checkCnameTargets, blocks, enforce, parses]
      · rename_i passes
        obtain ⟨udp, doh⟩ := ih found
        simp only [DnsFilterConfig.blocksName] at passes
        simp [DnsFilterConfig.checkCnames, checkCnameTargets, passes, udp, doh]

/-- The UDP check drops a query that cannot be read. -/
theorem checkCnames_unread (enforce : config.policyEngine.cfg.mode = .enforce)
    (found : targets.find? config.blocksName = some target) {error : Str}
    (fails : config.hickory.fromBytes forwarding.query = .error error) :
    (config.checkCnames forwarding targets).2 = true ∧
      replies (config.checkCnames forwarding targets).1 = [] := by
  induction targets with
  | nil => cases found
  | cons first targets ih =>
      rw [List.find?_cons] at found
      split at found
      · rename_i blocks
        simp only [DnsFilterConfig.blocksName] at blocks
        simp [DnsFilterConfig.checkCnames, blocks, enforce, fails, DnsEffect.sent]
      · rename_i passes
        simp only [DnsFilterConfig.blocksName] at passes
        simpa [DnsFilterConfig.checkCnames, passes] using ih found

/-- In report-only mode the UDP check counts blocked targets, and the DoH check does not. -/
theorem checks_reportOnly (report : config.policyEngine.cfg.mode = .reportOnly)
    (found : targets.find? config.blocksName = some target) :
    0 < (config.checkCnames forwarding targets).1.countP
      (·.raises (.metric .dnsReportOnlyTotal)) := by
  induction targets with
  | nil => cases found
  | cons first targets ih =>
      rw [List.find?_cons] at found
      split at found
      · rename_i blocks
        simp only [DnsFilterConfig.blocksName] at blocks
        simp [DnsFilterConfig.checkCnames, blocks, report, DnsEffect.raises]
      · rename_i passes
        simp only [DnsFilterConfig.blocksName] at passes
        simpa [DnsFilterConfig.checkCnames, passes] using ih found

theorem checkCnameTargets_idle (other : config.policyEngine.cfg.mode ≠ .enforce)
    (query : Bytes) (targets : List Str) : config.checkCnameTargets query targets = ([], none) := by
  induction targets with
  | nil => rfl
  | cons first targets ih => simp [checkCnameTargets, other, ih]

/-- Nothing is blocked in disabled mode. -/
theorem mode_of_blocked (found : targets.find? config.blocksName = some target) :
    config.policyEngine.cfg.mode = .enforce ∨ config.policyEngine.cfg.mode = .reportOnly := by
  have blocks := List.find?_some found
  cases mode : config.policyEngine.cfg.mode with
  | enforce => exact .inl rfl
  | reportOnly => exact .inr rfl
  | disabled => simp [DnsFilterConfig.blocksName, PolicyEngine.planForDnsQuery, mode] at blocks

end Check

/-! ## What both come to -/

/-- The same receipt for two hosts is the same if there is no store to keep it. -/
theorem countAlike_record_iff (config : DnsFilterConfig) (host other : Str) (counter : DnsMetric)
    (entry : DnsReceipt) (event : DnsLogEvent) (client : SocketAddr) (bytes : Bytes) :
    CountAlike (.metric counter :: config.record host entry ++ [.log event, .sendTo client bytes])
        (.metric counter :: config.record other entry) ↔
      config.receiptsStore = false ∨ normalizeHost other = normalizeHost host := by
  cases store : config.receiptsStore with
  | false =>
      simp [CountAlike, DnsFilterConfig.record, store, List.countP_cons, DnsEffect.raises]
  | true =>
      simp only [CountAlike, DnsFilterConfig.record, store, if_true, Bool.true_eq_false, false_or]
      constructor
      · intro same
        by_contra differs
        -- one of the two keys is not empty, and only one trace raises its counter
        by_cases filled : normalizeHost host = []
        · have counted := same (.receipt (normalizeHost other) entry)
          have other_filled : normalizeHost other ≠ [] :=
            fun empty => differs (empty.trans filled.symm)
          simp [DnsEffect.raises, Ne.symm differs, other_filled] at counted
        · have counted := same (.receipt (normalizeHost host) entry)
          simp [DnsEffect.raises, differs, filled] at counted
      · intro same counter'
        simp [List.countP_cons, DnsEffect.raises, same]

@[simp] theorem dnsEffects_append (left right : List DohEffect) :
    dnsEffects (left ++ right) = dnsEffects left ++ dnsEffects right := List.filterMap_append ..

@[simp] theorem dnsEffects_recordQuery (clientIp : Str) (effects : List DohEffect) :
    dnsEffects (.recordQuery clientIp :: effects) = dnsEffects effects := rfl

@[simp] theorem dnsEffects_map (effects : List DnsEffect) :
    dnsEffects (effects.map .dns) = effects := by
  induction effects with
  | nil => rfl
  | cons effect effects ih => exact congrArg (effect :: ·) ih

theorem decided_forward (config : DohServerConfig) (query : Bytes) (upstream : DohUpstream) :
    decided (dnsEffects (config.forward query upstream).1) = [] := by
  unfold forward
  split
  · split <;> rfl
  · split <;> rfl

@[simp] theorem dnsAnswers_dns (status : StatusCode) (body : Bytes) :
    dnsAnswers (.ok (dohDnsResponse status body)) = [body] := by
  simp [dnsAnswers, dohDnsResponse]

@[simp] theorem dnsAnswers_text (status : StatusCode) (msg : Str) :
    dnsAnswers (.ok (dohTextResponse status msg)) = [] := by
  have other : ascii "text/plain; charset=utf-8" ≠ dnsMessageType := by decide
  simp [dnsAnswers, dohTextResponse, other]

theorem forward_error {config : DohServerConfig} {query : Bytes} {upstream : DohUpstream}
    {response : DohResponse} (fails : (config.forward query upstream).2 = .error response) :
    response = dohTextResponse .badGateway (ascii "Upstream Error") := by
  unfold forward at fails
  split at fails
  · split at fails <;> cases fails
  · split at fails <;> cases fails <;> rfl

namespace Twice

variable {config : DohServerConfig} (x : config.Twice)

def forwarding : DnsFilterConfig.Forwarding :=
  ⟨x.query, x.client, config.queryNameOf x.query⟩

/-- What the UDP front end does behind the filter's own effects, given the reply. -/
def udpEffects : Option Bytes → List DnsEffect
  | none => []
  | some reply => config.deliver x.forwarding reply

/-- What the DoH front end does there, and its answers. -/
def dohEffects : Option Bytes → List DnsEffect × List Bytes
  | none => ([], [])
  | some reply =>
      let check := config.checkCnameTargets x.query (extractCnameTargets config.hickory reply)
      (check.1, [check.2.getD reply])

/-- A query that the filter answers is answered alike. -/
theorem answered_itself {effects : List DnsEffect} {response : Bytes}
    (answers : config.processDnsQuery x.query = (effects, some response)) :
    decided x.mine = decided effects ++ [.sendTo x.client response] ∧
      x.response = (.recordQuery x.clientIp :: effects.map .dns,
        .ok (dohDnsResponse .ok response)) := by
  have doh : x.response = (.recordQuery x.clientIp :: effects.map .dns,
      .ok (dohDnsResponse .ok response)) := by
    rw [Twice.response, handleDohRequest, x.carried]
    dsimp only
    rw [show config.processDnsQuery (x.datagram.take maxDnsPacket) = _ from answers]
  refine ⟨?_, doh⟩
  obtain ⟨effects', ⟨response', answers', mine⟩ | ⟨passes, -⟩⟩ :=
    DnsFilterConfig.handled_packet x.handling x.alone x.done
  · obtain ⟨rfl, same⟩ := Prod.mk.inj (answers'.symm.trans answers)
    rw [mine, Option.some.inj same]
  · have both := passes.symm.trans answers
    cases both

/-- A forwarded query is handled by the two copies of the forwarding code. -/
theorem forwarded_on {effects : List DnsEffect}
    (passes : config.processDnsQuery x.query = (effects, none)) :
    decided x.mine = decided effects ++ decided (x.udpEffects x.reply) ∧
      decided (dnsEffects x.response.1) =
        decided effects ++ decided (x.dohEffects x.reply).1 ∧
      dnsAnswers x.response.2 = (x.dohEffects x.reply).2 := by
  constructor
  · obtain ⟨effects', ⟨response, answers, -⟩ |
        ⟨passes', waiting, later, queue, -, mine, outcome⟩⟩ :=
      DnsFilterConfig.handled_packet x.handling x.alone x.done
    · have both := answers.symm.trans passes
      cases both
    · obtain ⟨rfl, -⟩ := Prod.mk.inj (passes'.symm.trans passes)
      rw [mine, reply, ← queue]
      cases outcome with
      | failed _ _ nothing silent => rw [nothing, silent]; rfl
      | timedOut _ _ nothing silent => rw [nothing, silent]; rfl
      | received _ _ reads delivers => rw [reads, delivers]; rfl
      | answered _ reads delivers => rw [reads, delivers]; rfl
  · have same := x.same_reply (congrArg Prod.snd passes)
    have silent := decided_forward config x.query x.upstream
    unfold Twice.query at passes silent
    rw [Twice.reply, ← same, Twice.response, handleDohRequest, x.carried]
    simp only [passes]
    rcases outcome : (config.forward (x.datagram.take maxDnsPacket) x.upstream).2 with
      response | (_ | reply)
    · rw [forward_error outcome]
      simp [silent, dohEffects, Except.toOption]
    · simp [silent, dohEffects, Except.toOption]
    · simp [silent, dohEffects, Except.toOption, Twice.query]

/-- For a forwarded query the decisions agree if the two copies do. -/
theorem sameDecision_iff_copies {effects : List DnsEffect}
    (passes : config.processDnsQuery x.query = (effects, none)) :
    x.SameDecision ↔
      (replies (x.udpEffects x.reply)).map Prod.snd = (x.dohEffects x.reply).2 ∧
        (∀ reply ∈ x.reply, x.Mismatched reply → replies (x.udpEffects x.reply) = [] ∧
          (x.dohEffects x.reply).2 = []) ∧
        CountAlike (x.udpEffects x.reply) (x.dohEffects x.reply).1 := by
  obtain ⟨udp, doh, answers⟩ := x.forwarded_on passes
  have silent := DnsFilterConfig.replies_processDnsQuery config.toDnsFilterConfig x.query
  rw [passes] at silent
  have sent : replies x.mine = replies (x.udpEffects x.reply) := by
    rw [← replies_decided, udp, replies_append, replies_decided, replies_decided, silent,
      List.nil_append]
  rw [← countAlike_append_iff udp doh, ← sent, ← answers]
  constructor
  · rintro ⟨same, refused, counts⟩
    exact ⟨same, refused (by rw [passes]), counts⟩
  · rintro ⟨same, refused, counts⟩
    exact ⟨same, fun _ => refused, counts⟩

theorem deliver_mismatched {reply : Bytes} (mismatched : x.Mismatched reply) :
    replies (config.deliver x.forwarding reply) = [] := by
  obtain ⟨key, keyed, differs⟩ := mismatched
  rw [DnsFilterConfig.deliver, show QueryKey.fromQueryBytes config.hickory x.forwarding.query = _
    from keyed]
  simp [differs, DnsEffect.sent]

theorem deliver_matched {reply : Bytes} (matched : ¬ x.Mismatched reply) :
    config.deliver x.forwarding reply =
      DnsFilterConfig.deliver.checked config.toDnsFilterConfig x.forwarding reply := by
  unfold DnsFilterConfig.deliver
  split
  · rename_i key keyed
    split
    · rfl
    · rename_i differs
      exact absurd ⟨key, keyed, Bool.eq_false_iff.mpr differs⟩ matched
  · rfl

/-- A reply for the query is handled alike unless a CNAME target is blocked. -/
theorem copies_of_matched {reply : Bytes} (matched : ¬ x.Mismatched reply) :
    ((replies (x.udpEffects (some reply))).map Prod.snd = (x.dohEffects (some reply)).2 ∧
        CountAlike (x.udpEffects (some reply)) (x.dohEffects (some reply)).1) ↔
      ∀ target, (extractCnameTargets config.hickory reply).find? config.blocksName = some target →
        config.policyEngine.cfg.mode = .enforce ∧
          (∃ message, config.hickory.fromBytes x.query = .ok message) ∧
          (config.receiptsStore = false ∨
          normalizeHost target = normalizeHost (config.queryNameOf x.query)) := by
  simp only [udpEffects, dohEffects, x.deliver_matched matched, DnsFilterConfig.deliver.checked]
  cases found : (extractCnameTargets config.hickory reply).find? config.blocksName with
  | none =>
      obtain ⟨udp, doh⟩ := checks_of_unblocked x.forwarding x.query found
      simp [udp, doh, CountAlike, DnsEffect.sent, DnsEffect.raises]
  | some target =>
      simp only [Option.some.injEq, forall_eq']
      rcases mode_of_blocked found with enforce | report
      · cases parses : config.hickory.fromBytes x.query with
        | error error =>
            obtain ⟨answered, silent⟩ := checkCnames_unread x.forwarding enforce found parses
            refine iff_of_false ?_ (by simp)
            rintro ⟨same, -⟩
            simp [answered, silent] at same
        | ok message =>
            obtain ⟨udp, doh⟩ := checks_enforce x.forwarding enforce found parses
            unfold Twice.forwarding at udp doh
            simp only [Twice.forwarding, udp, doh]
            have answers : (replies (DnsEffect.metric .dnsCnameUncloakedTotal ::
                config.record (config.queryNameOf x.query) .dnsCnameUncloaked ++
                [.log (.dnsCnameUncloaked (config.queryNameOf x.query) target),
                  .sendTo x.client (config.hickory.buildNxdomain message)])).map Prod.snd =
                [config.hickory.buildNxdomain message] := by
              simp [DnsEffect.sent]
            simp only [if_true, answers, Option.getD_some, true_and, Except.ok.injEq,
              exists_eq', enforce]
            exact countAlike_record_iff config.toDnsFilterConfig ..
      · have counted := checks_reportOnly x.forwarding report found
        refine iff_of_false ?_ (by simp [report])
        rintro ⟨-, counts⟩
        have none_counted := counts (.metric .dnsReportOnlyTotal)
        rw [checkCnameTargets_idle (by simp [report]), List.countP_nil] at none_counted
        split at none_counted
        · omega
        · rw [List.countP_append] at none_counted
          omega

/-- The two front ends make the same decision exactly if the name asked for is blocked, or no reply
comes, or the reply is for the query and a blocked CNAME target is found in enforce mode only, for a
query that can be read, and with the receipts of the name asked for wherever they are kept. -/
theorem same_decision_iff_alike : x.SameDecision ↔ x.Alike := by
  rcases passes : config.processDnsQuery x.query with ⟨effects, _ | response⟩
  · rw [x.sameDecision_iff_copies passes]
    unfold Alike
    rw [config.refuses_iff, passes]
    simp only [Option.isSome_none, Bool.false_eq_true, not_false_eq_true, true_implies]
    cases x.reply with
    | none => simp [udpEffects, dohEffects, CountAlike]
    | some reply =>
        simp only [Option.mem_some, forall_eq']
        by_cases mismatched : x.Mismatched reply
        · refine iff_of_false (fun ⟨_, refused, _⟩ => ?_) fun ⟨matched, _⟩ => matched mismatched
          exact absurd (refused mismatched).2 (by simp [dohEffects])
        · rw [← x.copies_of_matched mismatched]
          simp [mismatched]
  · obtain ⟨udp, doh⟩ := x.answered_itself passes
    have silent := DnsFilterConfig.replies_processDnsQuery config.toDnsFilterConfig x.query
    rw [passes] at silent
    have counts : CountAlike x.mine (dnsEffects x.response.1) := by
      rw [doh, dnsEffects_recordQuery, dnsEffects_map]
      have nothing : CountAlike [.sendTo x.client response] [] := fun _ => rfl
      exact (countAlike_append_iff udp (List.append_nil _).symm).mpr nothing
    refine iff_of_true ⟨?_, ?_, counts⟩ ?_
    · rw [← replies_decided, udp, doh, replies_append, replies_decided, silent]
      simp [DnsEffect.sent]
    · rw [passes]
      rintro ⟨⟩
    · unfold Alike
      rw [config.refuses_iff, passes]
      exact fun passed => absurd rfl passed

/-! ### Three differences -/

/-- Every query that is forwarded over UDP can meet with every reply in both front ends. -/
theorem exists_twice (config : DohServerConfig) (plain : config.upstreamDoh = none)
    (query reply : Bytes) (short : query.take maxDnsPacket = query)
    (short_reply : reply.take maxDnsPacket = reply)
    (passes : (config.processDnsQuery query).2 = none) :
    ∃ x : config.Twice, x.query = query ∧ x.reply = some reply := by
  rcases process : config.processDnsQuery query with ⟨effects, answer⟩
  rw [process] at passes
  obtain rfl : answer = none := passes
  have handles : config.runDnsFilter.react {} (.packet query []) =
      ⟨effects ++ [.sendUpstream query], .running
        { phase := .sending ⟨query, [], config.queryNameOf query⟩ }⟩ := by
    change config.onPacket {} (query.take maxDnsPacket) [] = _
    simp [DnsFilterConfig.onPacket, short, process, plain]
  let x : config.Twice :=
    { s := {}
      datagram := query
      client := []
      turn := [.upstreamSent, .upstreamArrives reply, .upstreamRecv]
      mine := _
      t := {}
      request := ⟨.post, some dnsMessageType, none, .ok query⟩
      clientIp := []
      upstream := ⟨.timeout, .datagram reply⟩
      handling := .step rfl handles (.step rfl rfl (.step rfl rfl (.step rfl rfl (.stop _))))
      alone := by simp
      done := rfl
      carried := by simp [queryBytes, short, Except.mapError]
      same_reply := fun _ => by
        simp [forward, plain, readReply, Except.toOption] }
  exact ⟨x, short, congrArg some short_reply⟩

open DnsFilterConfig in
/-- A server that filters nothing. -/
def sampleOpenDoh : DohServerConfig :=
  { Exchange.sampleStaleFilter with
    policyEngine := { cfg := PolicyConfig.defaultForMode .disabled }
    decode := fun _ => none }

open DnsFilterConfig in
/-- A server that blocks doubleclick.net, or reports it. -/
def sampleDoh (mode : PolicyMode) : DohServerConfig :=
  { sampleFilter with
    policyEngine := { cfg := { sampleFilter.policyEngine.cfg with mode } }
    decode := fun _ => none }

open DnsFilterConfig in
theorem sampleDoh_differs (mode : PolicyMode)
    (passes : ((sampleDoh mode).processDnsQuery sampleQuery).2 = none)
    (agrees : (QueryKey.fromQueryBytes (sampleDoh mode).hickory sampleQuery).all
      (·.matchesReplyBytes (sampleDoh mode).hickory sampleReply) = true)
    (blocked : (extractCnameTargets (sampleDoh mode).hickory sampleReply).find?
      (sampleDoh mode).blocksName = some (ascii "doubleclick.net")) :
    ∃ x : (sampleDoh mode).Twice, x.query = sampleQuery ∧ x.reply = some sampleReply ∧
      ¬ x.SameDecision := by
  obtain ⟨x, query, reply⟩ := exists_twice (sampleDoh mode) rfl sampleQuery sampleReply
    (by decide +kernel) (by decide +kernel) passes
  refine ⟨x, query, reply, fun same => ?_⟩
  have forwarded : (sampleDoh mode).processDnsQuery x.query = (_, none) :=
    Prod.ext rfl (query ▸ passes)
  obtain ⟨answers, -, counts⟩ := (x.sameDecision_iff_copies forwarded).mp same
  have matched : ¬ x.Mismatched sampleReply := by
    rintro ⟨key, keyed, differs⟩
    rw [query] at keyed
    rw [keyed, Option.all_some, differs] at agrees
    cases agrees
  rw [reply] at answers counts
  obtain ⟨-, -, kept | named⟩ :=
    (x.copies_of_matched matched).mp ⟨answers, counts⟩ _ blocked
  · cases kept
  · rw [query] at named
    have asked : sampleFilter.queryNameOf sampleQuery = ascii "example.org" := by decide +kernel
    rw [show (sampleDoh mode).queryNameOf sampleQuery = _ from asked] at named
    exact absurd named (by decide +kernel)

open DnsFilterConfig in
/-- A reply for another query is refused over UDP and returned over DoH; a blocked CNAME target is
counted over UDP alone in report-only mode, and under different names in enforce mode. -/
theorem front_ends_differ :
    (∃ x : sampleOpenDoh.Twice, x.query = Exchange.sampleNextQuery ∧ x.Mismatched sampleReply ∧
      replies x.mine = [] ∧ dnsAnswers x.response.2 = [sampleReply] ∧ ¬ x.SameDecision) ∧
    (∃ x : (sampleDoh .reportOnly).Twice, x.query = sampleQuery ∧ x.reply = some sampleReply ∧
      ¬ x.SameDecision) ∧
    ∃ x : (sampleDoh .enforce).Twice, x.query = sampleQuery ∧ x.reply = some sampleReply ∧
      ¬ x.SameDecision := by
  refine ⟨?_, sampleDoh_differs .reportOnly (by decide +kernel) (by decide +kernel)
    (by decide +kernel), sampleDoh_differs .enforce (by decide +kernel) (by decide +kernel)
    (by decide +kernel)⟩
  have passes : (sampleOpenDoh.processDnsQuery Exchange.sampleNextQuery).2 = none := by
    decide +kernel
  obtain ⟨x, query, reply⟩ := exists_twice sampleOpenDoh rfl Exchange.sampleNextQuery sampleReply
    (by decide +kernel) (by decide +kernel) passes
  have forwarded : sampleOpenDoh.processDnsQuery x.query = (_, none) :=
    Prod.ext rfl (query ▸ passes)
  obtain ⟨udp, -, doh⟩ := x.forwarded_on forwarded
  have mismatched : x.Mismatched sampleReply := by
    refine ⟨⟨0x4321, ascii "example.org", 1, 1⟩, ?_, by decide +kernel⟩
    rw [query]
    decide +kernel
  have dropped := x.deliver_mismatched mismatched
  have silent := DnsFilterConfig.replies_processDnsQuery sampleOpenDoh.toDnsFilterConfig x.query
  rw [forwarded] at silent
  have udp_silent : replies x.mine = [] := by
    rw [← replies_decided, udp, reply, replies_append, replies_decided, replies_decided]
    simp [silent, udpEffects, dropped]
  have doh_answers : dnsAnswers x.response.2 = [sampleReply] := by
    rw [doh, reply, dohEffects, checkCnameTargets_idle (by decide)]
    rfl
  refine ⟨x, query, mismatched, udp_silent, doh_answers, fun same => ?_⟩
  have answers := same.answers
  rw [udp_silent, doh_answers] at answers
  cases answers

end Twice

end DohServerConfig

end PrivacyEngine
