import Mathlib.Algebra.BigOperators.Group.List.Basic
import PrivacyEngine.Proxy.Connection
import PrivacyEngine.Reactive

/-!
# Session accounting

The session metrics are incremented along the exits of a connection.  The tally of a connection
counts what it increments and what it does; a finished connection has settled its tally.  Over all
connections the metrics balance exactly when no attempt has met an upstream TLS failure: the
fallback counts its tunnel twice, and an attempt whose host cannot be pinned is not counted as
ended.
-/

namespace PrivacyEngine

open Wire Interaction Reactive ConnectionTask

/-! ## The tally of one connection -/

/-- Increments by counter, raw tunnels attempted, and attempts that met an upstream TLS failure. -/
structure Tally where
  counts : SessionCounter → Nat := fun _ => 0
  rawTunnels : Nat := 0
  upstreamFailures : Nat := 0

namespace Tally

def bump (t : Tally) (counter : SessionCounter) : Tally :=
  { t with counts := Function.update t.counts counter (t.counts counter + 1) }

def reach (t : Tally) : Tally := { t with rawTunnels := t.rawTunnels + 1 }

def refuse (t : Tally) : Tally := { t with upstreamFailures := t.upstreamFailures + 1 }

/-- Whether an attempt ended with a failed upstream handshake. -/
def upstreamFails (intercepted : Intercepted) : Bool :=
  match intercepted.result with
  | .ok () => false
  | .error error => error.isUpstreamTlsHandshakeFailure

def add (t : Tally) : ConnectionEvent → Tally
  | ⟨.increment counter, _⟩ => t.bump counter
  | ⟨.io (.connect _), _⟩ => t.reach
  | ⟨.interceptTlsTunnel _ _, intercepted⟩ => if upstreamFails intercepted then t.refuse else t
  | _ => t

def watch (t : Tally) (op : ConnectionOp) (answer : op.Answer) : Option Tally :=
  some (t.add ⟨op, answer⟩)

/-- What a finished connection has counted. -/
structure Settled (t : Tally) : Prop where
  attempts : t.counts .mitmAttemptTotal =
    t.counts .mitmSuccessTotal + t.counts .mitmFailureTotal + t.upstreamFailures
  rejects : t.counts .mitmClientTlsRejectTotal ≤ t.counts .mitmFailureTotal
  pins : t.counts .hostAutoPinnedTotal ≤ t.counts .mitmAttemptTotal
  tunnels : t.counts .passthroughTunnelTotal =
    if t.upstreamFailures = 0 then t.rawTunnels else 2 * t.rawTunnels
  one_tunnel : t.rawTunnels ≤ 1
  one_failure : t.upstreamFailures ≤ 1

section Rules

variable {t : Tally} {α : Type} {post : Tally → Except IoError α → Prop}

theorem meets_increment {counter : SessionCounter} {post : Tally → Except IoError Unit → Prop} :
    Program.Meets watch post t (increment counter) ↔ post (t.bump counter) (.ok ()) := by
  constructor
  · intro meets
    obtain ⟨later, same, holds⟩ := meets ()
    cases same
    exact holds
  · exact fun holds answer => ⟨_, rfl, holds⟩

theorem meets_record {config : ProxyConfig} {host : Str} {entry : Record}
    {post : Tally → Except IoError Unit → Prop} (holds : post t (.ok ())) :
    Program.Meets watch post t (config.record host entry) := by
  rw [ProxyConfig.record]
  by_cases kept : config.receiptsStore = true
  · rw [if_pos kept]
    exact fun answer => ⟨t, rfl, holds⟩
  · rw [if_neg kept]
    exact holds

theorem meets_recordAll {config : ProxyConfig} {host : Str} {receipts : List Receipt}
    {post : Tally → Except IoError Unit → Prop} (holds : post t (.ok ())) :
    Program.Meets watch post t (config.recordAll host receipts) := by
  rw [ProxyConfig.recordAll]
  by_cases kept : config.receiptsStore = true
  · rw [if_pos kept]
    exact Program.meets_lift.mpr (Program.meets_performAll (fun _ _ _ => rfl) holds)
  · rw [if_neg kept]
    exact holds

/-- Operations that the tally does not see. -/
theorem meets_attempt {op : IoOp} {post : Tally → Except IoError op.Value → Prop}
    (other : ∀ targetAddr, op ≠ .connect targetAddr) (holds : ∀ answer, post t answer) :
    Program.Meets watch post t (attempt op) := by
  intro answer
  cases op with
  | connect targetAddr => exact absurd rfl (other targetAddr)
  | _ => exact ⟨t, rfl, holds answer⟩

end Rules

/-! ## The exits of a connection -/

section Exits

variable {t : Tally} {config : ProxyConfig} {host targetAddr : Str}

theorem meets_sendEarlyBytes {buf : Bytes} {post : Tally → Except IoError Unit → Prop}
    (holds : ∀ result, post t result) : Program.Meets watch post t (sendEarlyBytes buf) := by
  rw [sendEarlyBytes]
  by_cases empty : buf = []
  · rw [if_pos empty]
    exact holds _
  · rw [if_neg empty]
    exact meets_attempt (by simp) holds

theorem meets_copyTunnel {post : Tally → Except IoError Unit → Prop} (holds : post t (.ok ())) :
    Program.Meets watch post t copyTunnel :=
  meets_then fun _ => ⟨t, rfl, holds⟩

/-- A tunnel counts once and connects once. -/
theorem meets_tunnel {post : Tally → Except IoError Unit → Prop} {initial : Option Bytes}
    (holds : ∀ result, post (t.bump .passthroughTunnelTotal).reach result) :
    Program.Meets watch post t (tunnel targetAddr initial) := by
  refine meets_then (meets_increment.mpr (meets_then fun connected => ⟨_, rfl, ?_⟩))
  cases connected with
  | error error => exact holds _
  | ok connected =>
      refine meets_then (meets_sendEarlyBytes fun sent => ?_)
      cases sent with
      | error error => exact holds _
      | ok sent => exact meets_copyTunnel (holds _)

/-- Pinning counts when it pins, and may end the connection. -/
theorem meets_autoPin {post : Tally → Except IoError Unit → Prop} (same : ∀ result, post t result)
    (pins : post (t.bump .hostAutoPinnedTotal) (.ok ())) :
    Program.Meets watch post t (config.autoPin host) := by
  refine meets_then fun young => ⟨t, rfl, ?_⟩
  cases young with
  | true => exact same _
  | false =>
      refine meets_then (meets_attempt (by simp) fun pinned => ?_)
      cases pinned with
      | error error => exact same _
      | ok pinned =>
          cases pinned with
          | true => exact meets_then (meets_increment.mpr (meets_record pins))
          | false => exact same _

/-- The tallies an attempt can end with. -/
theorem settled_cases :
    Settled (({} : Tally).bump .mitmAttemptTotal |>.bump .mitmSuccessTotal) ∧
      Settled (({} : Tally).bump .mitmAttemptTotal |>.bump .mitmFailureTotal) ∧
      Settled (({} : Tally).bump .mitmAttemptTotal |>.bump .mitmFailureTotal
        |>.bump .mitmClientTlsRejectTotal) ∧
      Settled (({} : Tally).bump .mitmAttemptTotal |>.bump .mitmFailureTotal
        |>.bump .mitmClientTlsRejectTotal |>.bump .hostAutoPinnedTotal) ∧
      Settled (({} : Tally).bump .mitmAttemptTotal |>.refuse) ∧
      Settled (({} : Tally).bump .mitmAttemptTotal |>.refuse
        |>.bump .passthroughTunnelTotal |>.bump .passthroughTunnelTotal |>.reach) ∧
      Settled (({} : Tally).bump .mitmAttemptTotal |>.refuse |>.bump .hostAutoPinnedTotal
        |>.bump .passthroughTunnelTotal |>.bump .passthroughTunnelTotal |>.reach) := by
  refine ⟨?_, ?_, ?_, ?_, ?_, ?_, ?_⟩ <;> constructor <;> simp [bump, refuse, reach]

/-- An attempt that ends is settled, however it ends. -/
theorem settled_runMitmIntercept :
    Program.Meets watch (fun t _ => Settled t) {} (config.runMitmIntercept targetAddr host) := by
  obtain ⟨success, failure, rejected, pinned, refused, tunnelled, pinned_tunnelled⟩ := settled_cases
  refine meets_then (meets_increment.mpr (meets_then (meets_record (meets_then ?_))))
  intro intercepted
  refine ⟨_, rfl, meets_then (meets_recordAll ?_)⟩
  cases result : intercepted.result with
  | ok done =>
      simp only [add, upstreamFails, result, Bool.false_eq_true, if_false, Program.orFail]
      exact meets_then (meets_increment.mpr (meets_record success))
  | error error =>
      by_cases benign : error.isBenignPeerClose = true
      · simp only [add, upstreamFails, result, (MitmError.handshakes_of_benign benign).1, benign,
          Bool.false_eq_true, if_false, if_true, Program.orFail]
        exact meets_then (meets_increment.mpr (meets_record success))
      · by_cases upstream : error.isUpstreamTlsHandshakeFailure = true
        · simp only [add, upstreamFails, result, upstream, benign, Bool.false_eq_true, if_false,
            if_true, Program.orFail]
          refine meets_then (meets_autoPin (fun outcome => ?_) ?_)
          · cases outcome with
            | error error => exact refused
            | ok done => exact meets_then (meets_increment.mpr (meets_tunnel fun _ => tunnelled))
          · exact meets_then (meets_increment.mpr (meets_tunnel fun _ => pinned_tunnelled))
        · simp only [add, upstreamFails, result, upstream, benign, Bool.false_eq_true, if_false,
            Program.orFail]
          refine meets_then (meets_increment.mpr (meets_then (meets_record ?_)))
          by_cases client : error.isClientTlsHandshakeFailure = true
          · simp only [client, if_true, Program.orFail]
            refine meets_then (meets_increment.mpr (meets_then (meets_record ?_)))
            exact meets_autoPin (fun _ => rejected) pinned
          · simp only [client, Bool.false_eq_true, if_false, Program.orFail]
            exact failure

/-- A raw tunnel alone is settled. -/
theorem settled_tunnel : Settled (({} : Tally).bump .passthroughTunnelTotal |>.reach) := by
  constructor <;> simp [bump, reach]

theorem settled_start : Settled {} := by
  constructor <;> simp

theorem settled_connectPassthrough {buffered : Bytes} :
    Program.Meets watch (fun t _ => Settled t) {} (connectPassthrough targetAddr buffered) := by
  refine meets_then (meets_increment.mpr (meets_then fun connected => ⟨_, rfl, ?_⟩))
  cases connected with
  | error error => exact meets_attempt (by simp) fun _ => settled_tunnel
  | ok connected =>
      refine meets_then (meets_attempt (by simp) fun written => ?_)
      cases written with
      | error error => exact settled_tunnel
      | ok written =>
          refine meets_then (meets_sendEarlyBytes fun sent => ?_)
          cases sent with
          | error error => exact settled_tunnel
          | ok sent => exact meets_copyTunnel settled_tunnel

theorem meets_decideConnect {early : Bool} {post : Tally → Except IoError Bool → Prop}
    (holds : ∀ result, post t result) :
    Program.Meets watch post t (config.decideConnect host early) := by
  refine meets_then (meets_attempt (by simp) fun pinned => ?_)
  cases pinned with
  | error error => exact holds _
  | ok pinned => exact meets_then (meets_record (holds _))

theorem settled_handleConnectTunnel :
    Program.Meets watch (fun t _ => Settled t) {} config.handleConnectTunnel := by
  refine meets_then (meets_attempt (by simp) fun read => ?_)
  cases read with
  | error error => exact settled_start
  | ok read =>
      obtain ⟨requestHead, buffered⟩ := read
      simp only [Program.orFail]
      split
      · exact settled_start
      · split
        · exact settled_start
        · rename_i targetAddr _
          split
          · exact settled_connectPassthrough
          · rename_i host _
            refine meets_then (meets_decideConnect fun pinned => ?_)
            cases pinned with
            | error error => exact settled_start
            | ok pinned =>
                simp only [Program.orFail]
                split
                · refine meets_then (meets_attempt (by simp) fun written => ?_)
                  cases written with
                  | error error => exact settled_start
                  | ok written => exact settled_runMitmIntercept
                · exact settled_connectPassthrough

theorem settled_handleTransparentTls {sni : Str} :
    Program.Meets watch (fun t _ => Settled t) {} (config.handleTransparentTls sni) := by
  refine meets_then (meets_attempt (by simp) fun pinned => ?_)
  cases pinned with
  | error error => exact settled_start
  | ok pinned =>
      simp only [Program.orFail]
      split
      · exact meets_then (meets_record settled_runMitmIntercept)
      · exact meets_then (meets_record (meets_tunnel fun _ => settled_tunnel))

/-- Every connection that ends has settled its tally. -/
theorem settled_handleConnection :
    Program.Meets watch (fun t _ => Settled t) {} config.handleConnection := by
  refine meets_then (meets_attempt (by simp) fun peeked => ?_)
  cases peeked with
  | error error => exact settled_start
  | ok peeked =>
      simp only [Program.orFail]
      split
      · exact settled_start
      · split
        · exact settled_handleConnectTunnel
        · exact settled_handleTransparentTls
        · exact meets_attempt (by simp) fun _ => settled_start
        · exact settled_start

end Exits

end Tally

/-! ## All connections -/

def Connection.tally (connection : Connection) : Tally := connection.past.foldl Tally.add {}

/-- The session metrics and all connections that have been accepted. -/
structure SessionState where
  metrics : SessionCounter → Nat := fun _ => 0
  connections : List Connection := []

inductive SessionEvent where
  | accept
  /-- A connection performs its next operation. -/
  | act (index : Nat) (answers : ∀ op : ConnectionOp, op.Answer)

/-- What an operation does to the metrics. -/
def countEvent (metrics : SessionCounter → Nat) : ConnectionEvent → SessionCounter → Nat
  | ⟨.increment counter, _⟩ => Function.update metrics counter (metrics counter + 1)
  | _ => metrics

def ProxyConfig.proxy (config : ProxyConfig) : Machine SessionState SessionEvent Empty Empty where
  polls s
    | .accept => true
    | .act index answers => (Process.turn s.connections index answers).isSome
  react s
    | .accept =>
        ⟨[], .running
          { s with connections := s.connections ++ [Process.start config.handleConnection] }⟩
    | .act index answers =>
        match Process.turn s.connections index answers with
        | some (event, connections) =>
            ⟨[], .running { metrics := countEvent s.metrics event, connections }⟩
        | none => ⟨[], .running s⟩

namespace SessionState

/-- No connection is in progress. -/
def idle (s : SessionState) : Bool := s.connections.all Process.ended

/-- Attempts that ended in a tunnel to the target after an upstream TLS failure. -/
def fallbacks (s : SessionState) : Nat :=
  s.connections.countP fun connection =>
    0 < connection.tally.upstreamFailures && 0 < connection.tally.rawTunnels

/-- Connections for which a raw tunnel to the target was attempted. -/
def rawTunnels (s : SessionState) : Nat :=
  s.connections.countP fun connection => 0 < connection.tally.rawTunnels

/-- The four laws of the session metrics. -/
structure Balanced (s : SessionState) : Prop where
  attempts : s.metrics .mitmAttemptTotal =
    s.metrics .mitmSuccessTotal + s.metrics .mitmFailureTotal + s.fallbacks
  rejects : s.metrics .mitmClientTlsRejectTotal ≤ s.metrics .mitmFailureTotal
  pins : s.metrics .hostAutoPinnedTotal ≤ s.metrics .mitmAttemptTotal
  tunnels : s.metrics .passthroughTunnelTotal = s.rawTunnels

/-- Every connection follows its program, and the metrics are the sums over all tallies. -/
structure Accounted (s : SessionState) : Prop where
  follows : ∀ connection ∈ s.connections, ∃ t,
    connection.Follows Tally.watch (fun t _ => t.Settled) {} t
  counts : ∀ counter, s.metrics counter =
    (s.connections.map fun connection => connection.tally.counts counter).sum

section Runs

variable {s : SessionState} {config : ProxyConfig}

theorem observe_watch (t : Tally) (past : List ConnectionEvent) :
    observe Tally.watch t past = some (past.foldl Tally.add t) := by
  induction past generalizing t with
  | nil => rfl
  | cons event past ih => exact ih (t.add event)

/-- An operation adds to the tally of its connection what it adds to the metrics. -/
theorem counts_add (t : Tally) (metrics : SessionCounter → Nat) (event : ConnectionEvent)
    (counter : SessionCounter) :
    countEvent metrics event counter + t.counts counter =
      metrics counter + (t.add event).counts counter := by
  have bumps : ∀ {other : SessionCounter} {same : (ConnectionOp.increment other).Answer},
      countEvent metrics ⟨.increment other, same⟩ counter + t.counts counter =
        metrics counter + (t.add ⟨.increment other, same⟩).counts counter := by
    intro other same
    by_cases here : counter = other
    · subst here
      simp only [countEvent, Tally.add, Tally.bump, Function.update_self]
      omega
    · simp [countEvent, Tally.add, Tally.bump, here]
  obtain ⟨op, answer⟩ := event
  cases op with
  | increment other => exact bumps
  | interceptTlsTunnel targetAddr host =>
      simp only [countEvent, Tally.add]
      split
      · rfl
      · rfl
  | io op => cases op <;> rfl
  | inGracePeriod => rfl
  | record host entry => rfl

/-- A step keeps the account. -/
theorem Accounted.step (accounted : s.Accounted) {event : SessionEvent} {now : List Empty}
    {next : SessionState} (reacts : config.proxy.react s event = ⟨now, .running next⟩) :
    next.Accounted := by
  cases event with
  | accept =>
      cases reacts
      constructor
      · intro connection mem
        rcases List.mem_append.mp mem with old | new
        · exact accounted.follows connection old
        · rw [List.mem_singleton.mp new]
          exact ⟨_, Process.follows_start Tally.settled_handleConnection⟩
      · intro counter
        simp [accounted.counts counter, Connection.tally, Process.start]
  | act index answers =>
      simp only [ProxyConfig.proxy] at reacts
      split at reacts
      · rename_i event connections turns
        cases reacts
        obtain ⟨front, back, past, op, later, before, rfl, rfl⟩ := Process.turn_cases turns
        have follows := accounted.follows
        have counts := accounted.counts
        rw [before] at follows counts
        constructor
        · intro connection mem
          rcases List.mem_append.mp mem with left | right
          · exact follows connection (List.mem_append_left _ left)
          · rcases List.mem_cons.mp right with rfl | right
            · obtain ⟨t, followed⟩ := follows ⟨past, .act op later⟩ (by simp)
              obtain ⟨t', -, followed'⟩ := followed.turn (answers op)
              exact ⟨t', followed'⟩
            · exact follows connection (by simp [right])
        · intro counter
          have added := counts_add (past.foldl Tally.add {}) s.metrics ⟨op, answers op⟩ counter
          have total := counts counter
          simp only [List.map_append, List.map_cons, List.sum_append, List.sum_cons,
            Connection.tally, List.foldl_append, List.foldl_cons, List.foldl_nil] at total ⊢
          omega
      · cases reacts
        exact accounted

theorem accounted_start : Accounted {} :=
  ⟨fun _ mem => absurd mem List.not_mem_nil, fun _ => rfl⟩

theorem accounted_of_run {events : List SessionEvent} {outputs : List Empty} {final : SessionState}
    (execution : config.proxy.Run {} events outputs (.running final)) : final.Accounted :=
  execution.invariant (fun accounted _ reacts => accounted.step reacts) accounted_start

/-- A connection that has ended has settled its tally. -/
theorem Accounted.settled (accounted : s.Accounted) (idle : s.idle = true) :
    ∀ connection ∈ s.connections, connection.tally.Settled := by
  intro connection mem
  obtain ⟨t, followed⟩ := accounted.follows connection mem
  have observed := followed.1
  rw [observe_watch] at observed
  obtain ⟨value, settled⟩ := followed.ended (List.all_eq_true.mp idle connection mem)
  rwa [Connection.tally, Option.some.inj observed]

end Runs

end SessionState

/-- Settled tallies add up: only attempts that met an upstream failure are missing from what has
ended, and only their tunnels are counted twice. -/
theorem Tally.Settled.sums {connections : List Connection}
    (settled : ∀ connection ∈ connections, connection.tally.Settled) :
    let total counter := (connections.map fun connection => connection.tally.counts counter).sum
    let raw := connections.countP fun connection => 0 < connection.tally.rawTunnels
    let fallbacks := connections.countP fun connection =>
      0 < connection.tally.upstreamFailures && 0 < connection.tally.rawTunnels
    let failures := (connections.map fun connection => connection.tally.upstreamFailures).sum
    total .mitmAttemptTotal = total .mitmSuccessTotal + total .mitmFailureTotal + failures ∧
      total .mitmClientTlsRejectTotal ≤ total .mitmFailureTotal ∧
      total .hostAutoPinnedTotal ≤ total .mitmAttemptTotal ∧
      total .passthroughTunnelTotal = raw + fallbacks ∧ fallbacks ≤ failures := by
  dsimp only
  induction connections with
  | nil => simp
  | cons connection connections ih =>
      obtain ⟨attempts, rejects, pins, tunnels, one_tunnel, one_failure⟩ :=
        settled connection List.mem_cons_self
      obtain ⟨attempts', rejects', pins', tunnels', fallbacks'⟩ :=
        ih fun other mem => settled other (List.mem_cons_of_mem _ mem)
      simp only [List.map_cons, List.sum_cons, List.countP_cons, Bool.and_eq_true,
        decide_eq_true_eq]
      refine ⟨by omega, by omega, by omega, ?_, ?_⟩
      · rw [tunnels]
        split_ifs <;> omega
      · split_ifs <;> omega

namespace SessionState

/-- Between connections the metrics balance exactly when no attempt has ended with an upstream TLS
failure. -/
theorem balanced_iff (config : ProxyConfig) {events : List SessionEvent} {outputs : List Empty}
    {s : SessionState} (execution : config.proxy.Run {} events outputs (.running s))
    (idle : s.idle = true) :
    s.Balanced ↔ ∀ connection ∈ s.connections, connection.tally.upstreamFailures = 0 := by
  have accounted := accounted_of_run execution
  obtain ⟨attempts, rejects, pins, tunnels, le⟩ := Tally.Settled.sums (accounted.settled idle)
  simp only [← accounted.counts] at attempts rejects pins tunnels
  have no_failure :
      (s.connections.map fun connection => connection.tally.upstreamFailures).sum = 0 ↔
      ∀ connection ∈ s.connections, connection.tally.upstreamFailures = 0 := by
    rw [List.sum_eq_zero_iff]
    simp
  rw [← no_failure]
  constructor
  · intro balanced
    have ended := balanced.attempts
    have counted := balanced.tunnels
    simp only [fallbacks, rawTunnels] at ended counted
    omega
  · intro none
    refine ⟨?_, rejects, pins, ?_⟩
    · simp only [fallbacks]
      omega
    · simp only [rawTunnels]
      omega

def sampleProxy : ProxyConfig := ⟨true, false⟩

/-- One connection, with as many operations as it needs. -/
def sampleEvents (operations : Nat) (result : Except MitmError Unit) : List SessionEvent :=
  .accept :: List.replicate operations (.act 0 (sampleAnswers result))

/-- What a run of one connection ends with. -/
def sampleOutcome (reaction : Reaction SessionState Empty Empty) : Option (Bool × List Nat) :=
  reaction.status.state?.map fun s =>
    (s.idle, [s.metrics .mitmAttemptTotal, s.metrics .mitmSuccessTotal,
      s.metrics .passthroughTunnelTotal, s.rawTunnels,
      (s.connections.map fun connection => connection.tally.upstreamFailures).sum])

/-- A run of one connection that reaches its end. -/
theorem exists_sampleRun {operations : Nat} {result : Except MitmError Unit} {numbers : List Nat}
    (executes : (sampleProxy.proxy.run {} (sampleEvents operations result)).map sampleOutcome =
      some (some (true, numbers))) :
    ∃ outputs s, sampleProxy.proxy.Run {} (sampleEvents operations result) outputs (.running s) ∧
      s.idle = true ∧ numbers = [s.metrics .mitmAttemptTotal, s.metrics .mitmSuccessTotal,
        s.metrics .passthroughTunnelTotal, s.rawTunnels,
        (s.connections.map fun connection => connection.tally.upstreamFailures).sum] := by
  obtain ⟨outputs, status, execution, seen⟩ := Machine.exists_run _ _ _ _ executes
  obtain ⟨s, reached, same⟩ := Option.map_eq_some_iff.mp seen
  cases Status.eq_running reached
  obtain ⟨idle, counted⟩ := Prod.mk.inj same
  exact ⟨outputs, s, execution, idle, counted.symm⟩

/-- An attempt that succeeds leaves the metrics balanced. -/
theorem balanced_after_success :
    ∃ outputs s, sampleProxy.proxy.Run {} (sampleEvents 7 (.ok ())) outputs (.running s) ∧
      s.Balanced := by
  obtain ⟨outputs, s, execution, idle, numbers⟩ :=
    exists_sampleRun (show (sampleProxy.proxy.run {} (sampleEvents 7 (.ok ()))).map sampleOutcome =
      some (some (true, [1, 1, 0, 0, 0])) by decide +kernel)
  have none : (s.connections.map fun connection => connection.tally.upstreamFailures).sum = 0 := by
    simp only [List.cons.injEq] at numbers
    exact numbers.2.2.2.2.1.symm
  refine ⟨outputs, s, execution, (balanced_iff sampleProxy execution idle).mpr ?_⟩
  intro connection mem
  exact List.sum_eq_zero_iff.mp none _ (List.mem_map_of_mem mem)

/-- An upstream TLS failure counts its one tunnel twice. -/
theorem fallback_counts_twice :
    ¬ ∀ (config : ProxyConfig) (events : List SessionEvent) (outputs : List Empty)
      (s : SessionState), config.proxy.Run {} events outputs (.running s) → s.idle = true →
      s.Balanced := by
  intro balances
  obtain ⟨outputs, s, execution, idle, numbers⟩ :=
    exists_sampleRun (show (sampleProxy.proxy.run {} (sampleEvents 11
      (.error (.upstreamTlsHandshake (ascii "alert"))))).map sampleOutcome =
        some (some (true, [1, 0, 2, 1, 1])) by decide +kernel)
  have tunnels := (balances sampleProxy _ _ _ execution idle).tunnels
  simp only [List.cons.injEq] at numbers
  omega

end SessionState

end PrivacyEngine
