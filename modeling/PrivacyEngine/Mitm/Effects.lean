import PrivacyEngine.Io
import PrivacyEngine.Policy.Engine

/-!
# Observable effects of a tunnel

Everything the relay does to its surroundings: bytes written to either peer, half-closes, counter
increments, receipts and log events.  The effects of a run form one trace in program order.
-/

namespace PrivacyEngine

open Wire

structure BodyRewriteDetails where
  removedScripts : Nat
  removedPixels : Nat
  removedCosmetic : Nat
  bytesSaved : Nat
  deriving DecidableEq

/-- Counters the tunnel increments. -/
inductive Metric where
  | websocketBlockedTotal
  | refererSpoofedTotal
  | queryParamsStrippedTotal
  | cacheHeadersStrippedTotal
  | consentEnforcementBlockedTotal
  | bodyRewriteTotal
  | bodyRewriteSkippedTotal
  | certPinViolationTotal
  deriving DecidableEq

/-- Per-host receipts the tunnel records. -/
inductive Receipt where
  | websocketBlocked
  | refererSpoofed
  | queryParamsStripped
  | cacheHeadersStripped
  | consentEnforcement (mode : PolicyMode) (setCookieCount : Nat)
  | policySetCookie (mode : PolicyMode) (setCookieCount : Nat)
  | bodyRewrite (mode : PolicyMode) (details : BodyRewriteDetails)
  | bodyRewriteSkipped
  | certPinViolation
  deriving DecidableEq

/-- A cookie receipt reports at least one header, under a mode that looks for it. -/
def Receipt.Counted : Receipt → Prop
  | consentEnforcement mode setCookieCount | policySetCookie mode setCookieCount =>
      mode ≠ .disabled ∧ 0 < setCookieCount
  | _ => True

/-- Log events of the tunnel, named after their `event` field. -/
inductive LogEvent where
  | userProfileApplied (profile : Str)
  | websocketBlocked
  | refererSpoofed
  | queryParamsStripped
  | cacheRequestHeadersStripped
  | policyFilterFallback (pendingBytes : Nat)
  | policySetCookieRule (mode : PolicyMode) (setCookieCount : Nat)
  | cacheResponseHeadersStripped
  | bodyRewriteSkipped
  | bodyDecompressError (encoding error : Str)
  | bodyRecompressError (encoding error : Str)
  | bodyRewriteError (error : Str)
  | bodyRewrite (mode : PolicyMode) (originalLen rewrittenLen : Nat) (details : BodyRewriteDetails)
  | mitmHttp1Relay (clientToServerBytes serverToClientBytes : Nat)
  | certPinFirstSeen (fingerprint : Str)
  | certPinMismatch (expected : List Str) (got : Str)
  | certPinError (error : Str)
  deriving DecidableEq

inductive Effect where
  | writeClient (bytes : Bytes)
  | writeUpstream (bytes : Bytes)
  | shutdownClient
  | shutdownUpstream
  | metric (counter : Metric)
  | receipt (host : Str) (entry : Receipt)
  | log (event : LogEvent)
  deriving DecidableEq

namespace Effect

/-- Bytes an effect writes to the client. -/
def toClient : Effect → Bytes
  | writeClient bytes => bytes
  | _ => []

/-- Bytes an effect writes upstream. -/
def toUpstream : Effect → Bytes
  | writeUpstream bytes => bytes
  | _ => []

/-- Whether an effect reports a body that was replaced by its rewriting. -/
def isAppliedRewrite : Effect → Bool
  | log (.bodyRewrite .enforce _ _ _) => true
  | _ => false

/-- Whether an effect reports a blocked WebSocket upgrade. -/
def isWebsocketBlock : Effect → Bool
  | log .websocketBlocked => true
  | _ => false

/-- Counters, receipts and log events that report neither a replaced body nor a blocked upgrade. -/
def isBookkeeping : Effect → Bool
  | metric _ | receipt _ _ => true
  | log event => !(log event).isAppliedRewrite && !(log event).isWebsocketBlock
  | _ => false

/-- Effects of handling an upstream read for a host: receipts are for that host and not empty. -/
def Responds (host : Str) : Effect → Prop
  | writeClient _ | shutdownClient | metric _ => True
  | log event => event ≠ .websocketBlocked
  | receipt other entry => other = host ∧ entry.Counted
  | writeUpstream _ | shutdownUpstream => False

/-- Effects of handling an upstream read. -/
def isResponseSide : Effect → Bool
  | writeUpstream _ | shutdownUpstream => false
  | effect => !effect.isWebsocketBlock

end Effect

/-- Everything a trace writes to the client. -/
def clientBytes (effects : List Effect) : Bytes := effects.flatMap Effect.toClient

/-- Everything a trace writes upstream. -/
def upstreamBytes (effects : List Effect) : Bytes := effects.flatMap Effect.toUpstream

/-- Whether some body was replaced by its rewriting. -/
def rewriteApplied (effects : List Effect) : Bool := effects.any Effect.isAppliedRewrite

/-- Whether a WebSocket upgrade was answered with 403. -/
def websocketBlocked (effects : List Effect) : Bool := effects.any Effect.isWebsocketBlock

@[simp] theorem clientBytes_nil : clientBytes [] = [] := rfl

@[simp] theorem clientBytes_cons (effect : Effect) (effects : List Effect) :
    clientBytes (effect :: effects) = effect.toClient ++ clientBytes effects := rfl

@[simp] theorem clientBytes_append (left right : List Effect) :
    clientBytes (left ++ right) = clientBytes left ++ clientBytes right := by
  simp [clientBytes]

@[simp] theorem clientBytes_writes (parts : List Bytes) :
    clientBytes (parts.map Effect.writeClient) = parts.flatten := by
  induction parts with
  | nil => rfl
  | cons part parts ih => simp [ih, Effect.toClient]

@[simp] theorem upstreamBytes_nil : upstreamBytes [] = [] := rfl

@[simp] theorem upstreamBytes_cons (effect : Effect) (effects : List Effect) :
    upstreamBytes (effect :: effects) = effect.toUpstream ++ upstreamBytes effects := rfl

@[simp] theorem upstreamBytes_append (left right : List Effect) :
    upstreamBytes (left ++ right) = upstreamBytes left ++ upstreamBytes right := by
  simp [upstreamBytes]

@[simp] theorem rewriteApplied_nil : rewriteApplied [] = false := rfl

@[simp] theorem rewriteApplied_cons (effect : Effect) (effects : List Effect) :
    rewriteApplied (effect :: effects) = (effect.isAppliedRewrite || rewriteApplied effects) := rfl

@[simp] theorem rewriteApplied_append (left right : List Effect) :
    rewriteApplied (left ++ right) = (rewriteApplied left || rewriteApplied right) := by
  simp [rewriteApplied]

@[simp] theorem rewriteApplied_writes (parts : List Bytes) :
    rewriteApplied (parts.map Effect.writeClient) = false := by
  induction parts with
  | nil => rfl
  | cons part parts ih => simpa [Effect.isAppliedRewrite] using ih

@[simp] theorem websocketBlocked_nil : websocketBlocked [] = false := rfl

@[simp] theorem websocketBlocked_cons (effect : Effect) (effects : List Effect) :
    websocketBlocked (effect :: effects) =
      (effect.isWebsocketBlock || websocketBlocked effects) := rfl

@[simp] theorem websocketBlocked_append (left right : List Effect) :
    websocketBlocked (left ++ right) = (websocketBlocked left || websocketBlocked right) := by
  simp [websocketBlocked]

/-- Every effect of the trace is bookkeeping. -/
abbrev Bookkeeping (effects : List Effect) : Prop :=
  ∀ effect ∈ effects, effect.isBookkeeping = true

/-- Every effect of the trace can come from handling an upstream read. -/
abbrev ResponseSide (effects : List Effect) : Prop :=
  ∀ effect ∈ effects, effect.isResponseSide = true

section Bookkeeping

variable {effects : List Effect} (bookkeeping : Bookkeeping effects)

include bookkeeping

theorem clientBytes_of_bookkeeping : clientBytes effects = [] := by
  refine List.flatMap_eq_nil_iff.mpr fun effect mem => ?_
  have kept := bookkeeping effect mem
  cases effect <;> first | rfl | cases kept

theorem upstreamBytes_of_bookkeeping : upstreamBytes effects = [] := by
  refine List.flatMap_eq_nil_iff.mpr fun effect mem => ?_
  have kept := bookkeeping effect mem
  cases effect <;> first | rfl | cases kept

theorem rewriteApplied_of_bookkeeping : rewriteApplied effects = false := by
  refine List.any_eq_false.mpr fun effect mem applied => ?_
  have kept := bookkeeping effect mem
  cases effect <;> simp_all [Effect.isBookkeeping, Effect.isAppliedRewrite]

theorem websocketBlocked_of_bookkeeping : websocketBlocked effects = false := by
  refine List.any_eq_false.mpr fun effect mem blocked => ?_
  have kept := bookkeeping effect mem
  cases effect <;> simp_all [Effect.isBookkeeping, Effect.isWebsocketBlock]

end Bookkeeping

/-- Every effect of the trace comes from handling an upstream read for a host. -/
def Responding (host : Str) (effects : List Effect) : Prop :=
  ∀ effect ∈ effects, effect.Responds host

section Responding

variable {host : Str} {effects : List Effect}

theorem responding_nil : Responding host [] := List.forall_mem_nil _

theorem Responding.cons {effect : Effect} (first : effect.Responds host)
    (rest : Responding host effects) : Responding host (effect :: effects) :=
  List.forall_mem_cons.mpr ⟨first, rest⟩

theorem Responding.append {later : List Effect} (first : Responding host effects)
    (second : Responding host later) : Responding host (effects ++ later) :=
  List.forall_mem_append.mpr ⟨first, second⟩

theorem responding_writes (parts : List Bytes) :
    Responding host (parts.map Effect.writeClient) := by
  intro effect mem
  obtain ⟨part, -, rfl⟩ := List.mem_map.mp mem
  trivial

theorem responding_log {event : LogEvent} (other : event ≠ .websocketBlocked) :
    Responding host [.log event] := List.forall_mem_singleton.mpr other

theorem Responding.responseSide (responding : Responding host effects) : ResponseSide effects := by
  intro effect mem
  have responds := responding effect mem
  cases effect with
  | log event =>
      cases event with
      | websocketBlocked => exact absurd rfl responds
      | _ => rfl
  | writeUpstream bytes => exact responds.elim
  | shutdownUpstream => exact responds.elim
  | _ => rfl

end Responding

section ResponseSide

variable {effects : List Effect} (response_side : ResponseSide effects)

include response_side

theorem upstreamBytes_of_responseSide : upstreamBytes effects = [] := by
  refine List.flatMap_eq_nil_iff.mpr fun effect mem => ?_
  have side := response_side effect mem
  cases effect <;> first | rfl | cases side

theorem websocketBlocked_of_responseSide : websocketBlocked effects = false := by
  refine List.any_eq_false.mpr fun effect mem blocked => ?_
  have side := response_side effect mem
  cases effect <;> simp_all [Effect.isResponseSide]

end ResponseSide

end PrivacyEngine
