import PrivacyEngine.Reactive
import PrivacyEngine.Dns.Message

/-!
# The UDP front end of the DNS filter

The filter handles one client packet at a time.  A packet is answered, or forwarded and then
answered with what comes back, over one upstream socket that all queries share: datagrams that
arrive on it wait in a queue, whichever query they were meant for.
-/

namespace PrivacyEngine

open Wire Reactive

def maxDnsPacket : Nat := 4096

abbrev SocketAddr := Str

inductive DnsMetric where
  | dnsQueryTotal
  | dnsBlockedTotal
  | dnsReportOnlyTotal
  | dnsCnameUncloakedTotal
  deriving DecidableEq

inductive DnsReceipt where
  | dnsBlock
  | dnsReportOnly
  | dnsCnameUncloaked
  deriving DecidableEq

/-- Log events of the filter, named after their `event` field. -/
inductive DnsLogEvent where
  | dnsParseError (error : Str)
  | dnsBlocked (queryName : Str) (queryType : UInt16)
  | dnsWouldBlock (queryName : Str) (queryType : UInt16)
  | dnsRecvError (error : Str)
  | dnsForwardSendError (error : Str)
  | dnsUpstreamRecvError (error : Str)
  | dnsUpstreamTimeout
  | dohQueryError (url error : Str)
  | dohQueryTimeout (url : Str)
  | dnsUpstreamReplyMismatch (key : QueryKey)
  | dnsCnameUncloaked (queryName target : Str)
  | dnsCnameWouldBlock (queryName target : Str)
  deriving DecidableEq

inductive DnsEffect where
  | sendTo (client : SocketAddr) (bytes : Bytes)
  | sendUpstream (bytes : Bytes)
  | dohQuery (url : Str) (bytes : Bytes)
  | metric (counter : DnsMetric)
  | receipt (host : Str) (entry : DnsReceipt)
  | log (event : DnsLogEvent)
  deriving DecidableEq

/-- What an effect sends back to a client. -/
def DnsEffect.sent : DnsEffect → List (SocketAddr × Bytes)
  | .sendTo client bytes => [(client, bytes)]
  | _ => []

/-- Everything a trace sends back to clients. -/
def replies (effects : List DnsEffect) : List (SocketAddr × Bytes) :=
  effects.flatMap DnsEffect.sent

@[simp] theorem replies_nil : replies [] = [] := rfl

@[simp] theorem replies_cons (effect : DnsEffect) (effects : List DnsEffect) :
    replies (effect :: effects) = effect.sent ++ replies effects := rfl

@[simp] theorem replies_append (left right : List DnsEffect) :
    replies (left ++ right) = replies left ++ replies right := List.flatMap_append

/-- The filter: its library, policy, receipts and upstream. -/
structure DnsFilterConfig where
  hickory : Hickory
  policyEngine : PolicyEngine
  receiptsStore : Bool
  upstreamDoh : Option Str

namespace DnsFilterConfig

variable (config : DnsFilterConfig)

def record (host : Str) (entry : DnsReceipt) : List DnsEffect :=
  if config.receiptsStore then [.receipt host entry] else []

@[simp] theorem replies_record (host : Str) (entry : DnsReceipt) :
    replies (config.record host entry) = [] := by
  unfold record
  split <;> rfl

/-- Effects of a query and its answer, if the filter answers itself. -/
def processDnsQuery (queryData : Bytes) : List DnsEffect × Option Bytes :=
  let counted := DnsEffect.metric .dnsQueryTotal
  match config.hickory.fromBytes queryData with
  | .error error => ([counted, .log (.dnsParseError error)], none)
  | .ok message =>
      match config.hickory.standardQuestion message with
      | none => ([counted], none)
      | some question =>
          let queryName := config.hickory.nameOf question.name
          let plan := config.policyEngine.planForDnsQuery queryName
          if plan.shouldBlock then
            match plan.mode with
            | .enforce =>
                (counted :: .metric .dnsBlockedTotal :: config.record queryName .dnsBlock ++
                  [.log (.dnsBlocked queryName question.queryType)],
                  some (config.hickory.buildNxdomain message))
            | .reportOnly =>
                (counted :: .metric .dnsReportOnlyTotal :: config.record queryName .dnsReportOnly ++
                  [.log (.dnsWouldBlock queryName question.queryType)], none)
            | .disabled => ([counted], none)
          else ([counted], none)

/-- A query that is being forwarded: its bytes, its client and the name for the CNAME check. -/
structure Forwarding where
  query : Bytes
  client : SocketAddr
  queryName : Str
  deriving DecidableEq

/-- Name of the first question of a packet, empty when there is none. -/
def queryNameOf (queryData : Bytes) : Str :=
  match config.hickory.fromBytes queryData with
  | .error _ => []
  | .ok message =>
      (message.queries.head?.map fun question => config.hickory.nameOf question.name).getD []

/-- The check of the CNAME targets in order: its effects, and whether it answered. -/
def checkCnames (forwarding : Forwarding) : List Str → List DnsEffect × Bool
  | [] => ([], false)
  | target :: targets =>
      let plan := config.policyEngine.planForDnsQuery target
      let later := checkCnames forwarding targets
      if plan.shouldBlock then
        match plan.mode with
        | .enforce =>
            (.metric .dnsCnameUncloakedTotal ::
              config.record forwarding.queryName .dnsCnameUncloaked ++
              .log (.dnsCnameUncloaked forwarding.queryName target) ::
              match config.hickory.fromBytes forwarding.query with
              | .ok original =>
                  [.sendTo forwarding.client (config.hickory.buildNxdomain original)]
              | .error _ => [], true)
        | .reportOnly =>
            (.metric .dnsReportOnlyTotal :: config.record forwarding.queryName .dnsReportOnly ++
              .log (.dnsCnameWouldBlock forwarding.queryName target) :: later.1, later.2)
        | .disabled => later
      else later

/-- What is done with an upstream reply. -/
def deliver (forwarding : Forwarding) (reply : Bytes) : List DnsEffect :=
  match QueryKey.fromQueryBytes config.hickory forwarding.query with
  | some key =>
      if key.matchesReplyBytes config.hickory reply then checked
      else [.log (.dnsUpstreamReplyMismatch key)]
  | none => checked
where
  checked : List DnsEffect :=
    let check := config.checkCnames forwarding (extractCnameTargets config.hickory reply)
    if check.2 then check.1 else check.1 ++ [.sendTo forwarding.client reply]

end DnsFilterConfig

/-! ## The loop -/

/-- Where the loop waits. -/
inductive DnsPhase where
  | listening
  | sending (forwarding : DnsFilterConfig.Forwarding)
  | receiving (forwarding : DnsFilterConfig.Forwarding)
  | querying (url : Str) (forwarding : DnsFilterConfig.Forwarding)
  deriving DecidableEq

/-- State of the loop: where it waits, and the datagrams in the queue of the upstream socket. -/
structure DnsState where
  phase : DnsPhase := .listening
  upstreamQueue : List Bytes := []
  deriving DecidableEq

inductive DnsEvent where
  | packet (datagram : Bytes) (client : SocketAddr)
  | recvError (error : Str)
  | upstreamSent
  | upstreamSendError (error : Str)
  | upstreamArrives (datagram : Bytes)
  | upstreamRecv
  | upstreamRecvError (error : Str)
  | upstreamTimeout
  | dohAnswer (data : Bytes)
  | dohError (error : Str)
  | dohTimeout
  deriving DecidableEq

namespace DnsFilterConfig

variable (config : DnsFilterConfig)

def onPacket (s : DnsState) (queryData : Bytes) (client : SocketAddr) :
    Reaction DnsState DnsEffect Empty :=
  match config.processDnsQuery queryData with
  | (effects, some response) => ⟨effects ++ [.sendTo client response], .running s⟩
  | (effects, none) =>
      let forwarding : Forwarding := ⟨queryData, client, config.queryNameOf queryData⟩
      match config.upstreamDoh with
      | some url =>
          ⟨effects ++ [.dohQuery url queryData],
            .running { s with phase := .querying url forwarding }⟩
      | none =>
          ⟨effects ++ [.sendUpstream queryData], .running { s with phase := .sending forwarding }⟩

/-- Back to listening with the given effects. -/
def finish (s : DnsState) (effects : List DnsEffect) : Reaction DnsState DnsEffect Empty :=
  ⟨effects, .running { s with phase := .listening }⟩

/-- Whether the loop, or the kernel behind it, can take the event in the state. -/
def pollsEvent (s : DnsState) (event : DnsEvent) : Bool :=
  match event, s.phase with
  | .upstreamArrives _, _ => true
  | .packet _ _, .listening | .recvError _, .listening => true
  | .upstreamSent, .sending _ | .upstreamSendError _, .sending _ => true
  | .upstreamRecv, .receiving _ => !s.upstreamQueue.isEmpty
  | .upstreamRecvError _, .receiving _ => true
  | .upstreamTimeout, .receiving _ => s.upstreamQueue.isEmpty
  | .dohAnswer _, .querying _ _ | .dohError _, .querying _ _ | .dohTimeout, .querying _ _ => true
  | _, _ => false

def reactEvent (s : DnsState) (event : DnsEvent) : Reaction DnsState DnsEffect Empty :=
  match event, s.phase with
  | .upstreamArrives datagram, _ =>
      ⟨[], .running { s with upstreamQueue := s.upstreamQueue ++ [datagram] }⟩
  | .packet datagram client, .listening => config.onPacket s (datagram.take maxDnsPacket) client
  | .recvError error, .listening => finish s [.log (.dnsRecvError error)]
  | .upstreamSent, .sending forwarding => ⟨[], .running { s with phase := .receiving forwarding }⟩
  | .upstreamSendError error, .sending _ => finish s [.log (.dnsForwardSendError error)]
  | .upstreamRecv, .receiving forwarding =>
      match s.upstreamQueue with
      | [] => ⟨[], .running s⟩
      | datagram :: queue =>
          finish { s with upstreamQueue := queue }
            (config.deliver forwarding (datagram.take maxDnsPacket))
  | .upstreamRecvError error, .receiving _ => finish s [.log (.dnsUpstreamRecvError error)]
  | .upstreamTimeout, .receiving _ => finish s [.log .dnsUpstreamTimeout]
  | .dohAnswer data, .querying _ forwarding => finish s (config.deliver forwarding data)
  | .dohError error, .querying url _ => finish s [.log (.dohQueryError url error)]
  | .dohTimeout, .querying url _ => finish s [.log (.dohQueryTimeout url)]
  | _, _ => ⟨[], .running s⟩

/-- The loop of `run_dns_filter` behind its set-up; it never returns. -/
def runDnsFilter : Machine DnsState DnsEvent DnsEffect Empty where
  polls := pollsEvent
  react := config.reactEvent

end DnsFilterConfig

end PrivacyEngine
