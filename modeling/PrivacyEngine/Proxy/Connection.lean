import PrivacyEngine.Interaction
import PrivacyEngine.Mitm.RelayReceipts
import PrivacyEngine.Proxy.Classification
import PrivacyEngine.Proxy.HttpProxy
import PrivacyEngine.Proxy.Routing
import PrivacyEngine.Store.Receipts

/-!
# Handling a connection

The program that handles one connection, from the peek at its first bytes to its end.  Every wait
for a peer, every look at a shared store, every counter and every receipt is one operation, so
programs of different connections interleave between any two of them.
-/

namespace PrivacyEngine

open Wire Interaction

/-- Counters of the session metrics. -/
inductive SessionCounter where
  | passthroughTunnelTotal
  | mitmAttemptTotal
  | mitmSuccessTotal
  | mitmFailureTotal
  | mitmClientTlsRejectTotal
  | hostAutoPinnedTotal
  deriving DecidableEq

/-! ## Operations -/

/-- Receipts of a tunnel as the store records them. -/
def Receipt.record : Receipt → Record
  | websocketBlocked => .websocketBlocked
  | refererSpoofed => .refererSpoofed
  | queryParamsStripped => .queryParamsStripped
  | cacheHeadersStripped => .cacheHeadersStripped
  | consentEnforcement mode setCookieCount => .consentEnforcement mode setCookieCount
  | policySetCookie mode setCookieCount => .policySetCookie mode setCookieCount
  | bodyRewrite mode details => .bodyRewrite mode details
  | bodyRewriteSkipped => .bodyRewriteSkipped
  | certPinViolation => .certPinViolation

/-- How an intercepted tunnel went: the receipts it leaves, and its result. -/
structure Intercepted where
  receipts : List Receipt
  counted : ∀ entry ∈ receipts, entry.Counted
  result : Except MitmError Unit

/-- The receipts of a trace, without their host. -/
def receiptsOf (effects : List Effect) : List Receipt :=
  effects.filterMap fun
    | .receipt _ entry => some entry
    | _ => none

/-- What a relay leaves for its host, however it ends. -/
theorem RelayEnv.Ending.exists_intercepted {env : RelayEnv} {events : List RelayEvent}
    {s : RelayState} {event : RelayEvent} {unsent outputs : List Effect} {verdict : RelayVerdict}
    (ending : env.Ending events s event unsent outputs verdict) (result : Except MitmError Unit) :
    (∃ intercepted : Intercepted, intercepted.receipts = receiptsOf outputs ∧
        intercepted.result = result) ∧
      ∀ host entry, .receipt host entry ∈ outputs → host = env.targetHost := by
  refine ⟨⟨⟨receiptsOf outputs, fun entry mem => ?_, result⟩, rfl, rfl⟩,
    fun host entry mem => (ending.counted _ mem).1⟩
  obtain ⟨effect, listed, found⟩ := List.mem_filterMap.mp mem
  have counted := ending.counted effect listed
  cases effect with
  | receipt host other =>
      cases found
      exact counted.2
  | _ => cases found

/-- Operations that can fail with an I/O error. -/
inductive IoOp where
  | peek
  | readUntilHeadersComplete
  /-- `PinnedHosts::contains`. -/
  | contains (host : Str)
  /-- `PinnedHosts::add_and_persist`. -/
  | addAndPersist (host : Str)
  /-- `TcpStream::connect` for a tunnel that is not intercepted. -/
  | connect (targetAddr : Str)
  | writeClient (bytes : Bytes)
  | writeServer (bytes : Bytes)
  | copyBidirectional
  | handleHttpProxy

@[reducible] def IoOp.Value : IoOp → Type
  | peek => Bytes
  | readUntilHeadersComplete => Bytes × Bytes
  | contains _ | addAndPersist _ => Bool
  | copyBidirectional => Nat × Nat
  | connect _ | writeClient _ | writeServer _ | handleHttpProxy => Unit

inductive ConnectionOp where
  | io (op : IoOp)
  | inGracePeriod
  | interceptTlsTunnel (targetAddr host : Str)
  | increment (counter : SessionCounter)
  | record (host : Str) (entry : Record)

/-- What the surroundings may answer. -/
@[reducible] def ConnectionOp.Answer : ConnectionOp → Type
  | io op => Except IoError op.Value
  | inGracePeriod => Bool
  | interceptTlsTunnel _ _ => Intercepted
  | increment _ | record _ _ => Unit

/-- A program that may end with an error. -/
abbrev ConnectionTask (α : Type) : Type :=
  ExceptT IoError (Program ConnectionOp ConnectionOp.Answer) α

abbrev ConnectionEvent : Type := Event ConnectionOp ConnectionOp.Answer

/-- A connection on its way. -/
abbrev Connection : Type := Process ConnectionOp ConnectionOp.Answer (Except IoError Unit)

/-- One operation. -/
def ask (op : ConnectionOp) : ConnectionTask op.Answer := ExceptT.lift (Program.perform op)

/-- One operation whose error ends the program. -/
def attempt (op : IoOp) : ConnectionTask op.Value :=
  ExceptT.mk (Program.perform (ConnectionOp.io op))

/-- A connection is watched step after step. -/
theorem ConnectionTask.meets_then {σ α β : Type}
    {watch : σ → ∀ op : ConnectionOp, op.Answer → Option σ} {s : σ}
    {post : σ → Except IoError β → Prop} {task : ConnectionTask α} {later : α → ConnectionTask β}
    (meets : Program.Meets watch
      (Program.orFail post fun s value => Program.Meets watch post s (later value)) s task) :
    Program.Meets watch post s (task >>= later : ConnectionTask β) :=
  Program.meets_exceptBind.mpr meets

/-! ## Tunnels -/

def increment (counter : SessionCounter) : ConnectionTask Unit := ask (.increment counter)

/-- What the process is started with. -/
structure ProxyConfig where
  mitmEnabled : Bool
  receiptsStore : Bool

def connectionEstablished : Bytes :=
  ascii "HTTP/1.1 200 Connection established\r\nProxy-Agent: privacy-engine-rust/0.1\r\n\r\n"

def httpErrorResponse (status message : Str) : Bytes :=
  let body := message ++ [10]
  ascii "HTTP/1.1 " ++ status ++
    ascii "\r\nContent-Type: text/plain; charset=utf-8\r\nContent-Length: " ++
    decimal body.length ++
    ascii "\r\nConnection: close\r\n\r\n" ++ body

/-- Send bytes upstream that the client has sent early. -/
def sendEarlyBytes (buf : Bytes) : ConnectionTask Unit :=
  if buf = [] then pure () else attempt (.writeServer buf)

/-- Copy in both directions; the result is only logged. -/
def copyTunnel : ConnectionTask Unit := do
  let _ ← ask (.io .copyBidirectional)
  return ()

def tunnel (targetAddr : Str) (initialClientBytes : Option Bytes) : ConnectionTask Unit := do
  increment .passthroughTunnelTotal
  attempt (.connect targetAddr)
  sendEarlyBytes (initialClientBytes.getD [])
  copyTunnel

/-- The tunnel of a CONNECT request that is not intercepted. -/
def connectPassthrough (targetAddr : Str) (bufferedAfterHeaders : Bytes) : ConnectionTask Unit := do
  increment .passthroughTunnelTotal
  let connected : Except IoError Unit ← ask (.io (.connect targetAddr))
  match connected with
  | .ok () =>
      attempt (.writeClient connectionEstablished)
      sendEarlyBytes bufferedAfterHeaders
      copyTunnel
  | .error _ =>
      attempt (.writeClient (httpErrorResponse (ascii "502 Bad Gateway")
        (ascii "Failed to connect to upstream target.")))

namespace MitmError

def isClientTlsHandshakeFailure : MitmError → Bool
  | clientTlsHandshake _ => true
  | _ => false

def isUpstreamTlsHandshakeFailure : MitmError → Bool
  | upstreamTlsHandshake _ => true
  | _ => false

/-- A close that counts as a success is not a failed handshake. -/
theorem handshakes_of_benign {error : MitmError} (benign : error.isBenignPeerClose = true) :
    error.isUpstreamTlsHandshakeFailure = false ∧ error.isClientTlsHandshakeFailure = false := by
  cases error with
  | upstreamTlsHandshake reason => cases benign
  | clientTlsHandshake reason => cases benign
  | _ => exact ⟨rfl, rfl⟩

end MitmError

inductive Flow where
  | connect
  | transparent
  deriving DecidableEq

def Flow.asStr : Flow → Str
  | connect => ascii "connect"
  | transparent => ascii "transparent"

def TlsRoutingDecision.asAction : TlsRoutingDecision → Str
  | attemptMitm => ascii "mitm"
  | passthrough => ascii "passthrough"

namespace ProxyConfig

variable (config : ProxyConfig)

/-- A receipt, when receipts are kept. -/
def record (host : Str) (entry : Record) : ConnectionTask Unit :=
  if config.receiptsStore then ask (.record host entry) else pure ()

/-- The receipts an intercepted tunnel leaves, one at a time. -/
def recordAll (host : Str) (receipts : List Receipt) : ConnectionTask Unit :=
  if config.receiptsStore then
    ExceptT.lift (Program.performAll (fun entry => .record host entry.record) receipts)
  else pure ()

def logTlsRoutingDecision (flow : Flow) (host : Str) (decision : TlsRoutingDecision)
    (reason : Str) : ConnectionTask Unit :=
  config.record host (.tlsRoutingDecision flow.asStr decision.asAction reason)

/-- Pin a host after a rejected handshake, unless the process has just started. -/
def autoPin (host : Str) : ConnectionTask Unit := do
  let young : Bool ← ask .inGracePeriod
  if young then pure ()
  else
    let pinned : Bool ← attempt (.addAndPersist host)
    if pinned then
      increment .hostAutoPinnedTotal
      config.record host .hostAutoPinned
    else pure ()

def runMitmIntercept (targetAddr host : Str) : ConnectionTask Unit := do
  increment .mitmAttemptTotal
  config.record host .mitmAttempt
  let intercepted : Intercepted ← ask (.interceptTlsTunnel targetAddr host)
  config.recordAll host intercepted.receipts
  match intercepted.result with
  | .ok () =>
      increment .mitmSuccessTotal
      config.record host .mitmSuccess
  | .error error =>
      if error.isBenignPeerClose then
        increment .mitmSuccessTotal
        config.record host .mitmSuccess
      else if error.isUpstreamTlsHandshakeFailure then
        config.autoPin host
        increment .passthroughTunnelTotal
        tunnel targetAddr none
      else
        increment .mitmFailureTotal
        config.record host .mitmFailure
        if error.isClientTlsHandshakeFailure then
          increment .mitmClientTlsRejectTotal
          config.record host .clientTlsReject
          config.autoPin host
        else pure ()

def canAttemptConnectMitm (hostIsPinned mitmEnabled hasEarlyTunnelBytes : Bool) : Bool :=
  !hasEarlyTunnelBytes && decideTlsRouting hostIsPinned mitmEnabled == .attemptMitm

/-- The decision for the host of a CONNECT target, and whether it is pinned. -/
def decideConnect (host : Str) (hasEarlyTunnelBytes : Bool) : ConnectionTask Bool := do
  let hostIsPinned : Bool ← attempt (.contains host)
  let decision := decideTlsRouting hostIsPinned config.mitmEnabled
  let reason :=
    if hostIsPinned then ascii "host_is_pinned"
    else if config.mitmEnabled then ascii "host_not_pinned_and_mitm_enabled"
    else ascii "mitm_disabled"
  let skipped := decision == .attemptMitm && hasEarlyTunnelBytes
  config.logTlsRoutingDecision .connect host (if skipped then .passthrough else decision)
    (if skipped then ascii "early_tunnel_bytes" else reason)
  return hostIsPinned

def handleConnectTunnel : ConnectionTask Unit := do
  let (requestHead, bufferedAfterHeaders) : Bytes × Bytes ← attempt .readUntilHeadersComplete
  match firstRequestLine requestHead with
  | none => throw (invalidData (ascii "Malformed CONNECT request: missing request line"))
  | some requestLine =>
      match parseConnectTarget requestLine with
      | none => throw (invalidData (ascii "Malformed CONNECT request line: " ++ requestLine))
      | some targetAddr =>
          let hasEarlyTunnelBytes := !bufferedAfterHeaders.isEmpty
          match hostFromAuthority targetAddr with
          | none => connectPassthrough targetAddr bufferedAfterHeaders
          | some host =>
              let hostIsPinned ← config.decideConnect host hasEarlyTunnelBytes
              if config.mitmEnabled &&
                canAttemptConnectMitm hostIsPinned true hasEarlyTunnelBytes then
                attempt (.writeClient connectionEstablished)
                config.runMitmIntercept targetAddr host
              else connectPassthrough targetAddr bufferedAfterHeaders

/-- A TLS connection whose ClientHello names a server. -/
def handleTransparentTls (sni : Str) : ConnectionTask Unit := do
  let targetAddr := sni ++ ascii ":443"
  let normalizedSni := toAsciiLowercase sni
  let hostIsPinned : Bool ← attempt (.contains normalizedSni)
  match decideTlsRouting hostIsPinned config.mitmEnabled with
  | .attemptMitm =>
      config.logTlsRoutingDecision .transparent normalizedSni .attemptMitm
        (ascii "host_not_pinned_and_mitm_enabled")
      config.runMitmIntercept targetAddr normalizedSni
  | .passthrough =>
      config.logTlsRoutingDecision .transparent normalizedSni .passthrough
        (if hostIsPinned then ascii "host_is_pinned" else ascii "mitm_disabled")
      tunnel targetAddr none

def handleConnection : ConnectionTask Unit := do
  let peeked : Bytes ← attempt .peek
  if peeked = [] then pure ()
  else
    match route peeked with
    | .connectTunnel => config.handleConnectTunnel
    | .transparentTls sni => config.handleTransparentTls sni
    | .httpProxy => attempt .handleHttpProxy
    | .rejected => pure ()

end ProxyConfig

/-- A CONNECT request in the grace period, whose interception ends with a result. -/
def sampleAnswers (result : Except MitmError Unit) : ∀ op : ConnectionOp, op.Answer
  | .io .peek => .ok (ascii "CONNECT mail.example:443 HTTP/1.1\r\n\r\n")
  | .io .readUntilHeadersComplete => .ok (ascii "CONNECT mail.example:443 HTTP/1.1\r\n\r\n", [])
  | .io (.contains _) => .ok false
  | .io (.addAndPersist _) => .ok true
  | .io .copyBidirectional => .ok (517, 4096)
  | .io (.connect _) | .io (.writeClient _) | .io (.writeServer _) | .io .handleHttpProxy => .ok ()
  | .inGracePeriod => true
  | .interceptTlsTunnel _ _ => ⟨[], fun _ mem => absurd mem List.not_mem_nil, result⟩
  | .increment _ | .record _ _ => ()

end PrivacyEngine
