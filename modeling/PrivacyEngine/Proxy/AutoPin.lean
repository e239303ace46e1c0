import PrivacyEngine.Proxy.Connection
import PrivacyEngine.Reactive

/-!
# Hosts that are pinned by themselves

A connection intercepts a host only after it has found it unpinned, and pins it only after a TLS
handshake for it has failed and the grace period is over.  The set of pinned hosts is one for all
connections, so a host that has once rejected the interception is left alone by every connection
accepted later, and no host is pinned for another reason.
-/

namespace PrivacyEngine

open Wire Interaction Reactive ConnectionTask

/-! ## What one connection may do -/

/-- Whether a tunnel ended with a handshake that failed on either side. -/
def Intercepted.handshakeFailed (intercepted : Intercepted) : Bool :=
  match intercepted.result with
  | .ok () => false
  | .error error => error.isUpstreamTlsHandshakeFailure || error.isClientTlsHandshakeFailure

namespace AutoPin

/-- An attempt to intercept a host whose handshake failed. -/
def fails (host : Str) : ConnectionEvent → Bool
  | ⟨.interceptTlsTunnel _ other, intercepted⟩ => other = host && intercepted.handshakeFailed
  | _ => false

def Failed (past : List ConnectionEvent) (host : Str) : Prop := past.any (fails host) = true

/-- A host is intercepted when it was found unpinned, and pinned when a handshake for it has failed
and the grace period is over; that is asked only when a handshake has failed. -/
def Allows (past : List ConnectionEvent) : ConnectionEvent → Prop
  | ⟨.interceptTlsTunnel _ host, _⟩ => ⟨.io (.contains host), .ok false⟩ ∈ past
  | ⟨.inGracePeriod, _⟩ => ∃ host, Failed past host
  | ⟨.io (.addAndPersist host), _⟩ => Failed past host ∧ ⟨.inGracePeriod, false⟩ ∈ past
  | _ => True

/-- The host of a failed handshake was pinned, or it was too early to. -/
def Resolved (past : List ConnectionEvent) (host : Str) : Prop :=
  ∃ young, ⟨.inGracePeriod, young⟩ ∈ past ∧
    (young = false → ∃ answer, ⟨.io (.addAndPersist host), answer⟩ ∈ past)

/-- Every failed handshake is resolved, except for one host. -/
structure Settled (pending : Option Str) (past : List ConnectionEvent) : Prop where
  resolved : ∀ host, Failed past host → pending ≠ some host → Resolved past host
  failed : ∀ host, pending = some host → Failed past host

/-- Operations that neither intercept nor have to do with pinning. -/
def Plain : ConnectionOp → Prop
  | .interceptTlsTunnel _ _ | .inGracePeriod | .io (.addAndPersist _) => False
  | _ => True

section Pasts

variable {past more : List ConnectionEvent} {pending : Option Str} {host : Str}

theorem Failed.append (failed : Failed past host) (more : List ConnectionEvent) :
    Failed (past ++ more) host := by
  rw [Failed, List.any_append, failed, Bool.true_or]

theorem Resolved.append (resolved : Resolved past host) (more : List ConnectionEvent) :
    Resolved (past ++ more) host := by
  obtain ⟨young, asked, pins⟩ := resolved
  refine ⟨young, List.mem_append_left _ asked, fun mature => ?_⟩
  obtain ⟨answer, pinned⟩ := pins mature
  exact ⟨answer, List.mem_append_left _ pinned⟩

theorem not_failed_of_plain (plain : ∀ event ∈ more, Plain event.1) : ¬ Failed more host := by
  intro failed
  obtain ⟨⟨op, answer⟩, mem, here⟩ := List.any_eq_true.mp failed
  have kind := plain _ mem
  cases op with
  | interceptTlsTunnel targetAddr other => exact kind
  | _ => cases here

theorem failed_append : Failed (past ++ more) host ↔ Failed past host ∨ Failed more host := by
  rw [Failed, List.any_append, Bool.or_eq_true]
  rfl

theorem Settled.append (settled : Settled pending past)
    (same : ∀ host, Failed more host → pending = some host) : Settled pending (past ++ more) := by
  constructor
  · intro host failed other
    rcases failed_append.mp failed with old | new
    · exact (settled.resolved host old other).append more
    · exact absurd (same host new) other
  · exact fun host here => (settled.failed host here).append more

theorem Settled.plain (settled : Settled pending past) (plain : ∀ event ∈ more, Plain event.1) :
    Settled pending (past ++ more) :=
  settled.append fun _ failed => absurd failed (not_failed_of_plain plain)

theorem failed_attempt {targetAddr other : Str} {intercepted : Intercepted} :
    Failed [⟨.interceptTlsTunnel targetAddr other, intercepted⟩] host ↔
      other = host ∧ intercepted.handshakeFailed = true := by
  simp [Failed, fails]

/-- An attempt leaves its own host to resolve when its handshake has failed. -/
theorem Settled.attempt (settled : Settled none past) (targetAddr host : Str)
    (intercepted : Intercepted) :
    Settled (if intercepted.handshakeFailed then some host else none)
      (past ++ [⟨.interceptTlsTunnel targetAddr host, intercepted⟩]) := by
  cases handshake : intercepted.handshakeFailed with
  | false =>
      refine settled.append fun other failed => ?_
      rw [(failed_attempt.mp failed).2] at handshake
      cases handshake
  | true =>
      constructor
      · intro other failed pending
        rcases failed_append.mp failed with old | new
        · exact (settled.resolved other old nofun).append _
        · rw [(failed_attempt.mp new).1] at pending
          exact absurd rfl pending
      · rintro other ⟨⟩
        exact failed_append.mpr (.inr (failed_attempt.mpr ⟨rfl, handshake⟩))

theorem Settled.resolve (settled : Settled (some host) past) (resolved : Resolved past host) :
    Settled none past := by
  refine ⟨fun other failed _ => ?_, fun other wrong => by cases wrong⟩
  by_cases same : host = other
  · exact same ▸ resolved
  · exact settled.resolved other failed fun here => same (Option.some.inj here)

end Pasts

/-! ## The program -/

section Plain

variable {config : ProxyConfig} {host targetAddr : Str}

abbrev IsPlain {α : Type} (task : ConnectionTask α) : Prop := Program.Each Plain task

theorem isPlain_attempt (op : IoOp) (plain : Plain (.io op)) : IsPlain (attempt op) :=
  ⟨plain, fun _ => trivial⟩

/-- A task of plain operations that cannot fail. -/
def Notes (task : ConnectionTask Unit) : Prop :=
  ∃ program, Program.Each Plain program ∧ task = ExceptT.lift program

theorem Notes.isPlain {task : ConnectionTask Unit} (notes : Notes task) : IsPlain task := by
  obtain ⟨program, plain, rfl⟩ := notes
  exact Program.each_bind plain fun _ => trivial

theorem notes_increment (counter : SessionCounter) : Notes (increment counter) :=
  ⟨_, Program.each_perform trivial, rfl⟩

theorem notes_record (entry : Record) : Notes (config.record host entry) := by
  rw [ProxyConfig.record]
  split
  · exact ⟨_, Program.each_perform trivial, rfl⟩
  · exact ⟨pure (), trivial, rfl⟩

theorem notes_recordAll (receipts : List Receipt) : Notes (config.recordAll host receipts) := by
  rw [ProxyConfig.recordAll]
  split
  · refine ⟨Program.performAll (fun entry => .record host entry.record) receipts, ?_, rfl⟩
    exact Program.each_performAll fun _ _ => trivial
  · exact ⟨pure (), trivial, rfl⟩

theorem isPlain_sendEarlyBytes (buf : Bytes) : IsPlain (sendEarlyBytes buf) := by
  rw [sendEarlyBytes]
  split
  · trivial
  · exact isPlain_attempt (.writeServer buf) trivial

theorem isPlain_copyTunnel : IsPlain copyTunnel := ⟨trivial, fun _ => trivial⟩

theorem isPlain_tunnel (initial : Option Bytes) : IsPlain (tunnel targetAddr initial) := by
  apply Program.each_exceptBind (notes_increment _).isPlain
  intro
  apply Program.each_exceptBind (isPlain_attempt (.connect targetAddr) trivial)
  intro
  exact Program.each_exceptBind (isPlain_sendEarlyBytes _) fun _ => isPlain_copyTunnel

theorem isPlain_connectPassthrough (buffered : Bytes) :
    IsPlain (connectPassthrough targetAddr buffered) := by
  apply Program.each_exceptBind (notes_increment _).isPlain
  intro
  refine ⟨trivial, fun connected => ?_⟩
  cases connected with
  | error error => exact isPlain_attempt (.writeClient _) trivial
  | ok connected =>
      apply Program.each_exceptBind (isPlain_attempt (.writeClient _) trivial)
      intro
      exact Program.each_exceptBind (isPlain_sendEarlyBytes _) fun _ => isPlain_copyTunnel

end Plain

section Program

variable {config : ProxyConfig} {host targetAddr : Str} {past : List ConnectionEvent}
  {pending : Option Str}

noncomputable abbrev watch : List ConnectionEvent → (op : ConnectionOp) → op.Answer →
    Option (List ConnectionEvent) :=
  Program.remember Allows

theorem allows_plain (op : ConnectionOp) (plain : Plain op) (past : List ConnectionEvent)
    (answer : op.Answer) : Allows past ⟨op, answer⟩ := by
  cases op with
  | interceptTlsTunnel targetAddr host => exact plain.elim
  | inGracePeriod => exact plain.elim
  | io op =>
      cases op with
      | addAndPersist host => exact plain.elim
      | _ => trivial
  | _ => trivial

/-- What only does plain operations leaves the pending host pending. -/
theorem meets_plain {α : Type} {task : ConnectionTask α}
    {post : List ConnectionEvent → Except IoError α → Prop} (plain : IsPlain task)
    (settled : Settled pending past)
    (holds : ∀ more result, Settled pending (past ++ more) → post (past ++ more) result) :
    Program.Meets watch post past task :=
  plain.meets allows_plain fun more result kinds => holds more result (settled.plain kinds)

/-- Pinning resolves a failed handshake. -/
theorem meets_autoPin {post : List ConnectionEvent → Except IoError Unit → Prop}
    (settled : Settled (some host) past)
    (holds : ∀ later result, Settled none later → post later result) :
    Program.Meets watch post past (config.autoPin host) := by
  have failed : Failed past host := settled.failed host rfl
  refine meets_then (Program.meets_act (fun _ => ⟨host, failed⟩) fun young => ?_)
  have asked : Settled (some host) (past ++ [⟨.inGracePeriod, young⟩]) :=
    settled.append fun other wrong => by cases wrong
  have here : (⟨.inGracePeriod, young⟩ : ConnectionEvent) ∈ past ++ [⟨.inGracePeriod, young⟩] :=
    List.mem_append_right _ (List.mem_singleton_self _)
  cases young with
  | true => exact holds _ _ (asked.resolve ⟨true, here, nofun⟩)
  | false =>
      refine meets_then
        (Program.meets_act (fun _ => ⟨asked.failed host rfl, here⟩) fun answer => ?_)
      have pinned : Settled none (past ++ [⟨.inGracePeriod, false⟩] ++
          [⟨.io (.addAndPersist host), answer⟩]) := by
        refine Settled.resolve (asked.append fun other wrong => ?_)
          ⟨false, ?_, fun _ => ⟨answer, ?_⟩⟩
        · cases wrong
        · exact List.mem_append_left _ here
        · exact List.mem_append_right _ (List.mem_singleton_self _)
      cases answer with
      | error error => exact holds _ _ pinned
      | ok fresh =>
          cases fresh with
          | false => exact holds _ _ pinned
          | true =>
              apply meets_plain (Program.each_exceptBind (notes_increment _).isPlain
                fun _ => (notes_record _).isPlain) pinned
              exact fun more result settled => holds _ _ settled

/-- Counters and receipts leave the pending host pending. -/
theorem meets_note {α : Type} {task : ConnectionTask Unit} {later : Unit → ConnectionTask α}
    {post : List ConnectionEvent → Except IoError α → Prop} (notes : Notes task)
    (settled : Settled pending past)
    (rest : ∀ more, Settled pending (past ++ more) →
      Program.Meets watch post (past ++ more) (later ())) :
    Program.Meets watch post past (task >>= later : ConnectionTask α) := by
  obtain ⟨program, plain, rfl⟩ := notes
  refine meets_then (Program.meets_lift.mpr ?_)
  exact plain.meets allows_plain fun more value kinds => rest more (settled.plain kinds)

/-- What is left to do when nothing is pending. -/
theorem meets_rest {task : ConnectionTask Unit} (plain : IsPlain task)
    (settled : Settled none past) :
    Program.Meets watch (fun later _ => Settled none later) past task :=
  meets_plain plain settled fun _ _ settled => settled

/-- Pinning in front of plain operations. -/
theorem meets_autoPin_then {task : ConnectionTask Unit} (plain : IsPlain task)
    (settled : Settled (some host) past) :
    Program.Meets watch (fun later _ => Settled none later) past
      (config.autoPin host >>= fun _ => task : ConnectionTask Unit) := by
  refine meets_then (meets_autoPin settled fun later result settled => ?_)
  cases result with
  | error error => exact settled
  | ok done => exact meets_rest plain settled

/-- An attempt that ends has resolved what failed. -/
theorem meets_runMitmIntercept (settled : Settled none past)
    (unpinned : ⟨.io (.contains host), .ok false⟩ ∈ past) :
    Program.Meets watch (fun later _ => Settled none later) past
      (config.runMitmIntercept targetAddr host) := by
  refine meets_note (notes_increment _) settled fun counted settled => ?_
  refine meets_note (notes_record _) settled fun recorded settled => meets_then ?_
  refine Program.meets_act (fun _ => ?_) fun intercepted => ?_
  · exact List.mem_append_left _ (List.mem_append_left _ unpinned)
  have attempted := settled.attempt targetAddr host intercepted
  refine meets_note (notes_recordAll _) attempted fun _ attempted => ?_
  have success : IsPlain (do increment .mitmSuccessTotal; config.record host .mitmSuccess) :=
    Program.each_exceptBind (notes_increment _).isPlain fun _ => (notes_record _).isPlain
  cases result : intercepted.result with
  | ok done =>
      have handshake : intercepted.handshakeFailed = false := by
        rw [Intercepted.handshakeFailed, result]
      rw [handshake] at attempted
      exact meets_rest success attempted
  | error error =>
      have handshake : intercepted.handshakeFailed =
          (error.isUpstreamTlsHandshakeFailure || error.isClientTlsHandshakeFailure) := by
        rw [Intercepted.handshakeFailed, result]
      by_cases benign : error.isBenignPeerClose = true
      · obtain ⟨upstream, client⟩ := MitmError.handshakes_of_benign benign
        rw [handshake, upstream, client] at attempted
        simp only [benign, if_true]
        exact meets_rest success attempted
      · simp only [benign, Bool.false_eq_true, if_false]
        by_cases upstream : error.isUpstreamTlsHandshakeFailure = true
        · rw [upstream, Bool.true_or] at handshake
          rw [handshake, if_pos rfl] at attempted
          simp only [upstream, if_true]
          refine meets_autoPin_then ?_ attempted
          exact Program.each_exceptBind (notes_increment _).isPlain fun _ => isPlain_tunnel none
        · simp only [upstream, Bool.false_eq_true, if_false]
          refine meets_note (notes_increment _) attempted fun _ attempted => ?_
          refine meets_note (notes_record _) attempted fun _ attempted => ?_
          by_cases client : error.isClientTlsHandshakeFailure = true
          · rw [client, Bool.or_true] at handshake
            rw [handshake, if_pos rfl] at attempted
            simp only [client, if_true]
            refine meets_note (notes_increment _) attempted fun _ attempted => ?_
            refine meets_note (notes_record _) attempted fun _ attempted => ?_
            exact meets_autoPin attempted fun _ _ settled => settled
          · rw [Bool.not_eq_true] at upstream client
            rw [handshake, upstream, client] at attempted
            simp only [client, Bool.false_eq_true, if_false]
            exact attempted

/-- A look at the set, and what it allows when the host is not in it. -/
theorem meets_contains {α : Type} {later : Bool → ConnectionTask α}
    {post : List ConnectionEvent → Except IoError α → Prop} (settled : Settled none past)
    (fails : ∀ more error, Settled none (past ++ more) → post (past ++ more) (.error error))
    (rest : ∀ pinned, Settled none (past ++ [⟨.io (.contains host), .ok pinned⟩]) →
      Program.Meets watch post (past ++ [⟨.io (.contains host), .ok pinned⟩]) (later pinned)) :
    Program.Meets watch post past (attempt (.contains host) >>= later : ConnectionTask α) := by
  refine meets_then (Program.meets_act (fun _ => trivial) fun answer => ?_)
  have looked : Settled none (past ++ [⟨.io (.contains host), answer⟩]) :=
    settled.plain (List.forall_mem_singleton.mpr trivial)
  cases answer with
  | error error => exact fails _ error looked
  | ok pinned => exact rest pinned looked

theorem meets_handleTransparentTls {sni : Str} (settled : Settled none past) :
    Program.Meets watch (fun later _ => Settled none later) past
      (config.handleTransparentTls sni) := by
  refine meets_contains settled (fun _ _ settled => settled) fun pinned settled => ?_
  split
  · rename_i decided
    refine meets_note (notes_record _) settled fun more settled => ?_
    refine meets_runMitmIntercept settled (List.mem_append_left _ ?_)
    cases pinned with
    | true => simp [decideTlsRouting] at decided
    | false => exact List.mem_append_right _ (List.mem_singleton_self _)
  · refine meets_note (notes_record _) settled fun more settled => ?_
    exact meets_rest (isPlain_tunnel none) settled

theorem meets_decideConnect {early : Bool}
    {post : List ConnectionEvent → Except IoError Bool → Prop}
    (settled : Settled none past)
    (holds : ∀ later result, Settled none later →
      (result = .ok false → ⟨.io (.contains host), .ok false⟩ ∈ later) → post later result) :
    Program.Meets watch post past (config.decideConnect host early) := by
  refine meets_contains settled (fun _ _ settled => holds _ _ settled nofun) ?_
  intro pinned settled
  refine meets_note (notes_record _) settled fun more settled => holds _ _ settled ?_
  rintro ⟨⟩
  exact List.mem_append_left _ (List.mem_append_right _ (List.mem_singleton_self _))

theorem meets_handleConnectTunnel (settled : Settled none past) :
    Program.Meets watch (fun later _ => Settled none later) past config.handleConnectTunnel := by
  refine meets_then (meets_plain (isPlain_attempt .readUntilHeadersComplete trivial) settled ?_)
  intro more read settled
  cases read with
  | error error => exact settled
  | ok read =>
      obtain ⟨requestHead, buffered⟩ := read
      simp only [Program.orFail]
      split
      · exact settled
      · split
        · exact settled
        · split
          · exact meets_rest (isPlain_connectPassthrough buffered) settled
          · rename_i host _
            refine meets_then (meets_decideConnect settled fun later pinned settled found => ?_)
            cases pinned with
            | error error => exact settled
            | ok pinned =>
                simp only [Program.orFail]
                split
                · rename_i attempted
                  have unpinned : pinned = false := by
                    cases pinned with
                    | true =>
                        simp [ProxyConfig.canAttemptConnectMitm, decideTlsRouting] at attempted
                    | false => rfl
                  refine meets_then
                    (meets_plain (isPlain_attempt (.writeClient _) trivial) settled ?_)
                  intro more written settled
                  cases written with
                  | error error => exact settled
                  | ok written =>
                      have looked := found (congrArg Except.ok unpinned)
                      exact meets_runMitmIntercept settled (List.mem_append_left _ looked)
                · exact meets_rest (isPlain_connectPassthrough buffered) settled

theorem settled_nil : Settled none [] :=
  ⟨fun _ failed => (by cases failed), fun _ wrong => (by cases wrong)⟩

/-- A connection intercepts and pins as it may, and resolves what fails before it ends. -/
theorem meets_handleConnection :
    Program.Meets watch (fun later _ => Settled none later) [] config.handleConnection := by
  refine meets_then (meets_plain (isPlain_attempt .peek trivial) settled_nil ?_)
  intro more peeked settled
  cases peeked with
  | error error => exact settled
  | ok peeked =>
      simp only [Program.orFail]
      split
      · exact settled
      · split
        · exact meets_handleConnectTunnel settled
        · exact meets_handleTransparentTls settled
        · exact meets_rest (isPlain_attempt .handleHttpProxy trivial) settled
        · exact settled

end Program

end AutoPin

/-! ## All connections and their set -/

/-- `AUTO_PIN_GRACE_PERIOD_SECS` in milliseconds. -/
def autoPinGracePeriod : Nat := 60 * 1000

/-- The set of pinned hosts, the milliseconds since it was loaded, and the connections that have
been accepted. -/
structure PinningState where
  pinned : PinnedState
  elapsed : Nat
  connections : List Connection

inductive PinningEvent where
  | accept
  /-- A connection performs its next operation. -/
  | act (index : Nat) (answers : ∀ op : ConnectionOp, op.Answer) (outcomes : Outcomes FsWrite)
  | wait (millis : Nat)
  /-- The set is cleared from the dashboard. -/
  | reset (outcomes : Outcomes FsWrite)

namespace PinningState

section Steps

variable (serde : Serde) (s : PinningState)

/-- Operations on the set and on its clock are answered by them, the others by the surroundings. -/
def answer (answers : ∀ op : ConnectionOp, op.Answer) (outcomes : Outcomes FsWrite) :
    ∀ op : ConnectionOp, op.Answer
  | .io (.contains host) => .ok (s.pinned.store.holds host)
  | .io (.addAndPersist host) => (PinnedHosts.addAndPersist serde s.pinned host outcomes).1
  | .inGracePeriod => s.elapsed < autoPinGracePeriod
  | op => answers op

/-- The set behind an operation. -/
def pinnedAfter (outcomes : Outcomes FsWrite) : ConnectionOp → PinnedState
  | .io (.addAndPersist host) => (PinnedHosts.addAndPersist serde s.pinned host outcomes).2
  | _ => s.pinned

end Steps

end PinningState

def ProxyConfig.pinning (config : ProxyConfig) (serde : Serde) :
    Machine PinningState PinningEvent Empty Empty where
  polls s
    | .act index answers outcomes =>
        (Process.turn s.connections index (s.answer serde answers outcomes)).isSome
    | .accept | .wait _ | .reset _ => true
  react s
    | .accept =>
        ⟨[], .running
          { s with connections := s.connections ++ [Process.start config.handleConnection] }⟩
    | .act index answers outcomes =>
        match Process.turn s.connections index (s.answer serde answers outcomes) with
        | some (event, connections) =>
            ⟨[], .running { s with pinned := s.pinnedAfter serde outcomes event.1, connections }⟩
        | none => ⟨[], .running s⟩
    | .wait millis => ⟨[], .running { s with elapsed := s.elapsed + millis }⟩
    | .reset outcomes =>
        ⟨[], .running { s with pinned := (PinnedHosts.clearAndPersist serde s.pinned outcomes).2 }⟩

namespace PinningState

section Steps

variable {serde : Serde} {config : ProxyConfig} {s next : PinningState} {event : PinningEvent}
  {now : List Empty}

/-- What an event does. -/
theorem react_cases (polled : (config.pinning serde).polls s event = true)
    (reacts : (config.pinning serde).react s event = ⟨now, .running next⟩) :
    (next = { s with connections := s.connections ++ [Process.start config.handleConnection] }) ∨
    (∃ index answers outcomes past op later, s.connections[index]? = some ⟨past, .act op later⟩ ∧
      next = ⟨s.pinnedAfter serde outcomes op, s.elapsed, s.connections.set index
        ⟨past ++ [⟨op, s.answer serde answers outcomes op⟩],
          later (s.answer serde answers outcomes op)⟩⟩) ∨
    (∃ millis, next = { s with elapsed := s.elapsed + millis }) ∨
    ∃ outcomes, event = .reset outcomes ∧
      next = { s with pinned := (PinnedHosts.clearAndPersist serde s.pinned outcomes).2 } := by
  cases event with
  | accept =>
      cases reacts
      exact .inl rfl
  | act index answers outcomes =>
      simp only [ProxyConfig.pinning] at polled reacts
      obtain ⟨⟨done, connections⟩, turns⟩ := Option.isSome_iff_exists.mp polled
      rw [turns] at reacts
      cases reacts
      obtain ⟨past, op, later, found, rfl, rfl⟩ := Process.turn_getElem? turns
      exact .inr (.inl ⟨index, answers, outcomes, past, op, later, found, rfl⟩)
  | wait millis =>
      cases reacts
      exact .inr (.inr (.inl ⟨millis, rfl⟩))
  | reset outcomes =>
      cases reacts
      exact .inr (.inr (.inr ⟨outcomes, rfl, rfl⟩))

theorem getElem?_turned {connections : List Connection} {index : Nat} {old : Connection}
    (found : connections[index]? = some old) (new : Connection) :
    (connections.set index new)[index]? = some new :=
  List.getElem?_set_self (List.getElem?_eq_some_iff.mp found).1

/-- The connections under certain indices have a property. -/
def Among (chosen : Nat → Prop) (property : Connection → Prop) (s : PinningState) : Prop :=
  ∀ index connection, chosen index → s.connections[index]? = some connection → property connection

/-- A step keeps what new connections start with and turns keep. -/
theorem Among.step {chosen : Nat → Prop} {before after : Connection → Prop}
    (among : s.Among chosen before)
    (polled : (config.pinning serde).polls s event = true)
    (reacts : (config.pinning serde).react s event = ⟨now, .running next⟩)
    (starts : after (Process.start config.handleConnection))
    (weaker : ∀ connection, before connection → after connection)
    (turns : ∀ past op later answers outcomes, before ⟨past, .act op later⟩ →
      next.elapsed = s.elapsed → next.pinned = s.pinnedAfter serde outcomes op →
      after ⟨past ++ [⟨op, s.answer serde answers outcomes op⟩],
        later (s.answer serde answers outcomes op)⟩) :
    next.Among chosen after := by
  intro place connection old found
  have unchanged : s.connections[place]? = some connection → after connection :=
    fun found => weaker connection (among place connection old found)
  rcases react_cases polled reacts with rfl |
      ⟨index, answers, outcomes, past, op, later, here, rfl⟩ |
    ⟨millis, rfl⟩ | ⟨outcomes, -, rfl⟩
  · rcases Nat.lt_or_ge place s.connections.length with inside | outside
    · rw [List.getElem?_append_left inside] at found
      exact unchanged found
    · rw [List.getElem?_append_right outside] at found
      rw [List.mem_singleton.mp (List.mem_of_getElem? found)]
      exact starts
  · by_cases same : index = place
    · subst same
      rw [getElem?_turned here] at found
      cases found
      exact turns past op later answers outcomes (among index _ old here) rfl rfl
    · rw [List.getElem?_set_ne same] at found
      exact unchanged found
  · exact unchanged found
  · exact unchanged found

theorem pinnedAfter_add (serde : Serde) (s : PinningState) (outcomes : Outcomes FsWrite)
    (host : Str) :
    s.pinnedAfter serde outcomes (.io (.addAndPersist host)) =
      (PinnedHosts.call serde s.pinned (.add host outcomes)).2 := rfl

/-- A host stays pinned until the set is cleared. -/
theorem holds_step {host : Str} (held : s.pinned.store.holds host = true)
    (keeps : ∀ outcomes, event ≠ .reset outcomes)
    (polled : (config.pinning serde).polls s event = true)
    (reacts : (config.pinning serde).react s event = ⟨now, .running next⟩) :
    next.pinned.store.holds host = true := by
  rcases react_cases polled reacts with rfl | ⟨_, answers, outcomes, _, op, _, -, rfl⟩ |
    ⟨millis, rfl⟩ | ⟨outcomes, cleared, -⟩
  · exact held
  · cases op with
    | io op =>
        cases op with
        | addAndPersist other =>
            simp only [pinnedAfter_add]
            exact PinnedHosts.holds_of_call held fun _ wrong => by cases wrong
        | _ => exact held
    | _ => exact held
  · exact held
  · exact absurd cleared (keeps outcomes)

/-- What is in the set behind a step was in it before or is pinned by a connection. -/
theorem mem_pinnedAfter {outcomes : Outcomes FsWrite} {op : ConnectionOp} {key : Str}
    (mem : key ∈ (s.pinnedAfter serde outcomes op).store.hosts) :
    key ∈ s.pinned.store.hosts ∨
      ∃ host, op = .io (.addAndPersist host) ∧ normalizeHost host = key := by
  cases op with
  | io op =>
      cases op with
      | addAndPersist host =>
          rw [pinnedAfter_add] at mem
          by_cases known : normalizeHost host = [] ∨ normalizeHost host ∈ s.pinned.store.hosts
          · rw [PinnedHosts.call_add_known serde outcomes known] at mem
            exact .inl mem
          · obtain ⟨filled, new⟩ := not_or.mp known
            rw [PinnedHosts.call_add_new filled new rfl] at mem
            rcases Std.ExtTreeSet.mem_insert.mp mem with same | old
            · exact .inr ⟨host, rfl, Std.LawfulEqCmp.compare_eq_iff_eq.mp same⟩
            · exact .inl old
      | _ => exact .inl mem
  | _ => exact .inl mem

theorem not_mem_clear {outcomes : Outcomes FsWrite} {key : Str} :
    key ∉ (PinnedHosts.clearAndPersist serde s.pinned outcomes).2.store.hosts := by
  have cleared : (PinnedHosts.clearAndPersist serde s.pinned outcomes).2.store.hosts = ∅ :=
    congrArg (fun called => called.2.store.hosts)
      (@PinnedHosts.call_clear serde s.pinned outcomes _ _ rfl)
  rw [cleared]
  exact Std.ExtTreeSet.not_mem_empty

/-- What a connection has done stays done. -/
theorem past_step (polled : (config.pinning serde).polls s event = true)
    (reacts : (config.pinning serde).react s event = ⟨now, .running next⟩)
    {connection : Connection} (mem : connection ∈ s.connections) :
    ∃ later ∈ next.connections, connection.past <+: later.past := by
  rcases react_cases polled reacts with rfl | ⟨index, _, _, past, op, later, found, rfl⟩ |
    ⟨_, rfl⟩ | ⟨_, -, rfl⟩
  · exact ⟨connection, List.mem_append_left _ mem, List.prefix_rfl⟩
  · obtain ⟨place, here⟩ := List.mem_iff_getElem?.mp mem
    by_cases same : index = place
    · subst same
      cases found.symm.trans here
      refine ⟨_, List.mem_of_getElem? (getElem?_turned found _), ?_⟩
      exact List.prefix_append past _
    · refine ⟨connection, List.mem_iff_getElem?.mpr ⟨place, ?_⟩, List.prefix_rfl⟩
      rw [List.getElem?_set_ne same, here]
  · exact ⟨connection, mem, List.prefix_rfl⟩
  · exact ⟨connection, mem, List.prefix_rfl⟩

/-- Time only passes. -/
theorem elapsed_step (polled : (config.pinning serde).polls s event = true)
    (reacts : (config.pinning serde).react s event = ⟨now, .running next⟩) :
    s.elapsed ≤ next.elapsed := by
  rcases react_cases polled reacts with rfl | ⟨_, _, _, _, _, _, -, rfl⟩ | ⟨millis, rfl⟩ |
    ⟨_, -, rfl⟩
  · exact le_rfl
  · exact le_rfl
  · exact Nat.le_add_right _ _
  · exact le_rfl

end Steps

/-! ## Runs -/

section Runs

variable {serde : Serde} {config : ProxyConfig} {s next : PinningState} {event : PinningEvent}
  {now : List Empty}

/-- The connection has only done what it may, and resolves what fails before it ends. -/
def Careful (connection : Connection) : Prop :=
  ∃ past, connection.Follows AutoPin.watch (fun later _ => AutoPin.Settled none later) [] past

theorem careful_start : Careful (Process.start config.handleConnection) :=
  ⟨[], Process.follows_start AutoPin.meets_handleConnection⟩

theorem Careful.turn {past : List ConnectionEvent} {op : ConnectionOp}
    {later : op.Answer → ConnectionTask Unit} (careful : Careful ⟨past, .act op later⟩)
    (answer : op.Answer) : Careful ⟨past ++ [⟨op, answer⟩], later answer⟩ := by
  obtain ⟨seen, follows⟩ := careful
  obtain ⟨seen', -, follows'⟩ := follows.turn answer
  exact ⟨seen', follows'⟩

theorem Careful.allowed {connection : Connection} (careful : Careful connection)
    {front back : List ConnectionEvent} {event : ConnectionEvent}
    (split : connection.past = front ++ event :: back) : AutoPin.Allows front event := by
  obtain ⟨seen, observed, -⟩ := careful
  exact (Process.observe_remember observed).2 front event back split

theorem Careful.settled {connection : Connection} (careful : Careful connection)
    (ended : connection.ended = true) : AutoPin.Settled none connection.past := by
  obtain ⟨seen, follows⟩ := careful
  obtain ⟨value, settled⟩ := follows.ended ended
  rwa [(Process.observe_remember follows.1).1] at settled

/-- A connection intercepts what it has found unpinned. -/
theorem Careful.contains_of_intercept {connection : Connection} (careful : Careful connection)
    {targetAddr host : Str} {intercepted : Intercepted}
    (mem : ⟨.interceptTlsTunnel targetAddr host, intercepted⟩ ∈ connection.past) :
    ⟨.io (.contains host), .ok false⟩ ∈ connection.past := by
  obtain ⟨front, back, split⟩ := List.append_of_mem mem
  have looked : ⟨.io (.contains host), .ok false⟩ ∈ front := careful.allowed split
  rw [split]
  exact List.mem_append_left _ looked

/-- What a connection has done behind the grace period, while the set is not cleared. -/
structure Pins (s : PinningState) (connection : Connection) : Prop where
  careful : Careful connection
  mature : ⟨.inGracePeriod, true⟩ ∉ connection.past
  pinned : ∀ host answer, ⟨.io (.addAndPersist host), answer⟩ ∈ connection.past →
    normalizeHost host ≠ [] → s.pinned.store.holds host = true

theorem pins_step {chosen : Nat → Prop} (among : s.Among chosen (Pins s))
    (mature : autoPinGracePeriod ≤ s.elapsed) (keeps : ∀ outcomes, event ≠ .reset outcomes)
    (polled : (config.pinning serde).polls s event = true)
    (reacts : (config.pinning serde).react s event = ⟨now, .running next⟩) :
    next.Among chosen (Pins next) := by
  have kept : ∀ {host : Str}, s.pinned.store.holds host = true →
      next.pinned.store.holds host = true :=
    fun held => holds_step held keeps polled reacts
  refine among.step polled reacts ⟨careful_start, List.not_mem_nil, ?_⟩ ?_ ?_
  · exact fun _ _ mem => absurd mem List.not_mem_nil
  · intro connection pins
    exact ⟨pins.careful, pins.mature, fun host answer mem filled =>
      kept (pins.pinned host answer mem filled)⟩
  · intro past op later answers outcomes pins _ after
    refine ⟨pins.careful.turn _, fun early => ?_, fun host answer mem filled => ?_⟩
    · rcases List.mem_append.mp early with old | new
      · exact pins.mature old
      · obtain ⟨rfl, same⟩ := Sigma.mk.inj_iff.mp (List.mem_singleton.mp new)
        exact absurd (of_decide_eq_true (eq_of_heq same).symm) (not_lt.mpr mature)
    · rcases List.mem_append.mp mem with old | new
      · exact kept (pins.pinned host answer old filled)
      · obtain ⟨rfl, -⟩ := Sigma.mk.inj_iff.mp (List.mem_singleton.mp new)
        rw [after, pinnedAfter_add]
        exact PinnedHosts.holds_of_added s.pinned outcomes filled

/-- A connection that has not found a host unpinned. -/
structure Spares (host : Str) (connection : Connection) : Prop where
  careful : Careful connection
  unpinned : ∀ other, ⟨.io (.contains other), .ok false⟩ ∈ connection.past →
    normalizeHost other ≠ normalizeHost host

theorem spares_step {chosen : Nat → Prop} {host : Str} (among : s.Among chosen (Spares host))
    (held : s.pinned.store.holds host = true)
    (polled : (config.pinning serde).polls s event = true)
    (reacts : (config.pinning serde).react s event = ⟨now, .running next⟩) :
    next.Among chosen (Spares host) := by
  refine among.step polled reacts ⟨careful_start, ?_⟩ (fun _ spares => spares) ?_
  · exact fun _ mem => absurd mem List.not_mem_nil
  · intro past op later answers outcomes spares _ _
    refine ⟨spares.careful.turn _, fun other mem => ?_⟩
    rcases List.mem_append.mp mem with old | new
    · exact spares.unpinned other old
    · obtain ⟨rfl, same⟩ := Sigma.mk.inj_iff.mp (List.mem_singleton.mp new)
      intro key
      have absent : false = s.pinned.store.holds other := Except.ok.inj (eq_of_heq same)
      rw [PinnedHosts.holds, key] at absent
      exact absurd (absent.trans held) Bool.false_ne_true

/-- There are no connections behind the last one. -/
theorem among_beyond (property : Connection → Prop) :
    s.Among (s.connections.length ≤ ·) property := by
  intro index connection beyond found
  rw [List.getElem?_eq_none beyond] at found
  cases found

/-- In a run from the start all connections are careful. -/
theorem careful_of_run {loaded : PinnedState} {events : List PinningEvent} {outputs : List Empty}
    (execution : (config.pinning serde).Run ⟨loaded, 0, []⟩ events outputs (.running s)) :
    s.Among (fun _ => True) Careful := by
  refine execution.history (fun _ _ s => s.Among (fun _ => True) Careful) ?_ ?_
  · exact fun index connection _ found => (by cases found)
  · intro _ _ s event now next _ among polled reacts
    exact among.step polled reacts careful_start (fun _ careful => careful)
      fun _ _ _ _ _ careful _ _ => careful.turn _

/-- A careful connection that has met no failed handshake has neither asked for the time nor pinned
a host. -/
theorem Careful.pins_of_unfailed {connection : Connection} (careful : Careful connection)
    (unfailed : ∀ host, ¬ AutoPin.Failed connection.past host) : Pins s connection := by
  have later_failed : ∀ {front back : List ConnectionEvent} {event : ConnectionEvent} {host : Str},
      connection.past = front ++ event :: back → ¬ AutoPin.Failed front host := by
    intro front back event host split failed
    exact unfailed host (split ▸ failed.append (event :: back))
  refine ⟨careful, fun asked => ?_, fun host answer pinned => ?_⟩
  · obtain ⟨front, back, split⟩ := List.append_of_mem asked
    obtain ⟨host, failed⟩ : ∃ host, AutoPin.Failed front host := careful.allowed split
    exact absurd failed (later_failed split)
  · obtain ⟨front, back, split⟩ := List.append_of_mem pinned
    obtain ⟨failed, -⟩ : AutoPin.Failed front host ∧ _ := careful.allowed split
    exact absurd failed (later_failed split)

variable (s) in
/-- The connection has not met a failed handshake by now, if it has been accepted at all. -/
def Unfailed (index : Nat) : Prop :=
  ∀ connection, s.connections[index]? = some connection →
    ∀ host, ¬ AutoPin.Failed connection.past host

theorem unfailed_of_new {index : Nat}
    (new : s.connections[index]?.map (fun connection => connection.past.isEmpty) = some true) :
    s.Unfailed index := by
  intro connection here host failed
  rw [here, Option.map_some, Option.some.injEq] at new
  rw [List.isEmpty_iff.mp new] at failed
  cases failed

/-- Once a handshake for a host has failed behind the grace period, connections that are accepted
when its connection has ended leave the host alone, under every spelling, unless the set has been
cleared since the failure. -/
theorem rejecting_host_is_left_alone (config : ProxyConfig) (serde : Serde) {loaded : PinnedState}
    {mature pinned final : PinningState} {earlier during later : List PinningEvent}
    {outputs outputs' outputs'' : List Empty}
    (start : (config.pinning serde).Run ⟨loaded, 0, []⟩ earlier outputs (.running mature))
    (first : (config.pinning serde).Run mature during outputs' (.running pinned))
    (second : (config.pinning serde).Run pinned later outputs'' (.running final))
    (keeps : ∀ outcomes, .reset outcomes ∉ during ++ later)
    (expired : autoPinGracePeriod ≤ mature.elapsed) {index : Nat} (unfailed : mature.Unfailed index)
    {connection : Connection} (found : pinned.connections[index]? = some connection)
    (ended : connection.ended = true) {host : Str} (failed : AutoPin.Failed connection.past host)
    (filled : normalizeHost host ≠ []) :
    ∀ index connection, pinned.connections.length ≤ index →
      final.connections[index]? = some connection → ∀ targetAddr spelling intercepted,
        ⟨.interceptTlsTunnel targetAddr spelling, intercepted⟩ ∈ connection.past →
          normalizeHost spelling ≠ normalizeHost host := by
  have kinds : ∀ event ∈ during ++ later, ∀ outcomes, event ≠ .reset outcomes :=
    fun event mem outcomes same => keeps outcomes (same ▸ mem)
  have watched : autoPinGracePeriod ≤ pinned.elapsed ∧
      pinned.Among mature.Unfailed (Pins pinned) := by
    refine first.kept (fun s => autoPinGracePeriod ≤ s.elapsed ∧
      s.Among mature.Unfailed (Pins s)) ?_
      (fun event mem => kinds event (List.mem_append_left _ mem)) ⟨expired, ?_⟩
    · intro s next event now ⟨expired, among⟩ keeps polled reacts
      exact ⟨expired.trans (elapsed_step polled reacts),
        pins_step among expired keeps polled reacts⟩
    · intro index connection unfailed found
      exact (careful_of_run start index connection trivial found).pins_of_unfailed
        (unfailed connection found)
  have pins := watched.2 index connection unfailed found
  have held : pinned.pinned.store.holds host = true := by
    obtain ⟨young, asked, pinned⟩ := (pins.careful.settled ended).resolved host failed nofun
    cases young with
    | true => exact absurd asked pins.mature
    | false =>
        obtain ⟨answer, mem⟩ := pinned rfl
        exact pins.pinned host answer mem filled
  have spared : final.pinned.store.holds host = true ∧
      final.Among (pinned.connections.length ≤ ·) (Spares host) := by
    refine second.kept (fun s => s.pinned.store.holds host = true ∧
      s.Among (pinned.connections.length ≤ ·) (Spares host)) ?_
      (fun event mem => kinds event (List.mem_append_right _ mem)) ⟨held, among_beyond _⟩
    intro s next event now ⟨held, among⟩ keeps polled reacts
    exact ⟨holds_step held keeps polled reacts, spares_step among held polled reacts⟩
  intro index connection accepted found targetAddr spelling intercepted mem
  have spares := spared.2 index connection accepted found
  exact spares.unpinned spelling (spares.careful.contains_of_intercept mem)

/-- A connection is accepted within the grace period, and the grace period passes. -/
def sampleAcceptance : List PinningEvent := [.accept, .wait 60000]

/-- The client of the connection rejects the interception. -/
def sampleRejection : List PinningEvent :=
  List.replicate 11 (.act 0 (sampleAnswers (.error (.clientTlsHandshake (ascii "alert")))) .smooth)

/-- A later connection to the host. -/
def sampleReturn : List PinningEvent :=
  .accept :: List.replicate 7 (.act 1 (sampleAnswers (.ok ())) .smooth)

/-- What is seen of a run: the connections, and how the first one ended. -/
def seenOf (reaction : Reaction PinningState Empty Empty) : Option (Nat × Option (Bool × Bool)) :=
  reaction.status.state?.map fun s => (s.connections.length, s.connections[0]?.map fun connection =>
    (connection.ended, connection.past.any (AutoPin.fails (ascii "mail.example"))))

/-- What is seen of a young run: its age, and whether the first connection has done nothing. -/
def agedOf (reaction : Reaction PinningState Empty Empty) : Option (Nat × Option Bool) :=
  reaction.status.state?.map fun s => (s.elapsed, s.connections[0]?.map fun connection =>
    connection.past.isEmpty)

/-- The client of a connection that was accepted in the grace period rejects the interception behind
it: the host is not intercepted again. -/
theorem sampleReturn_is_left_alone :
    ∃ outputs mature outputs' pinned outputs'' final,
      (ProxyConfig.pinning ⟨true, false⟩ Json.closedSerde).Run ⟨PinnedHosts.samplePinned, 0, []⟩
        sampleAcceptance outputs (.running mature) ∧
      (ProxyConfig.pinning ⟨true, false⟩ Json.closedSerde).Run mature sampleRejection outputs'
        (.running pinned) ∧
      (ProxyConfig.pinning ⟨true, false⟩ Json.closedSerde).Run pinned sampleReturn outputs''
        (.running final) ∧
      ∀ index connection, pinned.connections.length ≤ index →
        final.connections[index]? = some connection → ∀ targetAddr spelling intercepted,
          ⟨.interceptTlsTunnel targetAddr spelling, intercepted⟩ ∈ connection.past →
            normalizeHost spelling ≠ ascii "mail.example" := by
  obtain ⟨outputs, status, start, seen⟩ := Machine.exists_run
    (ProxyConfig.pinning ⟨true, false⟩ Json.closedSerde) ⟨PinnedHosts.samplePinned, 0, []⟩
    sampleAcceptance agedOf (show _ = some (some (60000, some true)) by decide +kernel)
  obtain ⟨_, status', until_end, seen'⟩ := Machine.exists_run
    (ProxyConfig.pinning ⟨true, false⟩ Json.closedSerde) ⟨PinnedHosts.samplePinned, 0, []⟩
    (sampleAcceptance ++ sampleRejection) seenOf
    (show _ = some (some (1, some (true, true))) by decide +kernel)
  obtain ⟨_, status'', whole, seen''⟩ := Machine.exists_run
    (ProxyConfig.pinning ⟨true, false⟩ Json.closedSerde) ⟨PinnedHosts.samplePinned, 0, []⟩
    (sampleAcceptance ++ sampleRejection ++ sampleReturn) seenOf
    (show _ = some (some (2, some (true, true))) by decide +kernel)
  obtain ⟨mature, reached, aged⟩ := Option.map_eq_some_iff.mp seen
  obtain ⟨pinned, reached', same⟩ := Option.map_eq_some_iff.mp seen'
  obtain ⟨final, reached'', -⟩ := Option.map_eq_some_iff.mp seen''
  cases Status.eq_running reached
  cases Status.eq_running reached'
  cases Status.eq_running reached''
  obtain ⟨outputs', first, -⟩ := until_end.split start
  obtain ⟨outputs'', second, -⟩ := whole.split until_end
  obtain ⟨elapsed, young⟩ := Prod.mk.inj aged
  obtain ⟨-, observed⟩ := Prod.mk.inj same
  obtain ⟨connection, found, ended⟩ := Option.map_eq_some_iff.mp observed
  obtain ⟨ended, failed⟩ := Prod.mk.inj ended
  refine ⟨outputs, mature, outputs', pinned, outputs'', final, start, first, second, ?_⟩
  have key : normalizeHost (ascii "mail.example") = ascii "mail.example" := by decide +kernel
  have spared := rejecting_host_is_left_alone ⟨true, false⟩ Json.closedSerde start first second
    (by simp [sampleRejection, sampleReturn]) elapsed.ge (unfailed_of_new young) found ended failed
    (by rw [key]; decide)
  rwa [key] at spared

/-- A connection whose grace period was over when it said so. -/
structure Timely (s : PinningState) (connection : Connection) : Prop where
  careful : Careful connection
  mature : ⟨.inGracePeriod, false⟩ ∈ connection.past → autoPinGracePeriod ≤ s.elapsed

theorem timely_step (among : s.Among (fun _ => True) (Timely s))
    (polled : (config.pinning serde).polls s event = true)
    (reacts : (config.pinning serde).react s event = ⟨now, .running next⟩) :
    next.Among (fun _ => True) (Timely next) := by
  have passes := elapsed_step polled reacts
  refine among.step polled reacts ⟨careful_start, fun mem => absurd mem List.not_mem_nil⟩ ?_ ?_
  · exact fun connection timely => ⟨timely.careful, fun mem => (timely.mature mem).trans passes⟩
  · intro past op later answers outcomes timely same _
    refine ⟨timely.careful.turn _, fun mem => ?_⟩
    rcases List.mem_append.mp mem with old | new
    · exact (timely.mature old).trans passes
    · obtain ⟨rfl, answered⟩ := Sigma.mk.inj_iff.mp (List.mem_singleton.mp new)
      rw [same]
      exact not_lt.mp (of_decide_eq_false (eq_of_heq answered).symm)

/-- A host in the set that was pinned because a handshake for it has failed. -/
def Caused (s : PinningState) (key : Str) : Prop :=
  autoPinGracePeriod ≤ s.elapsed ∧ ∃ connection ∈ s.connections, ∃ host,
    AutoPin.Failed connection.past host ∧ normalizeHost host = key

theorem Caused.step {key : Str} (caused : s.Caused key)
    (polled : (config.pinning serde).polls s event = true)
    (reacts : (config.pinning serde).react s event = ⟨now, .running next⟩) : next.Caused key := by
  obtain ⟨mature, connection, mem, host, failed, same⟩ := caused
  obtain ⟨later, mem', more, grown⟩ := past_step polled reacts mem
  refine ⟨mature.trans (elapsed_step polled reacts), later, mem', host, ?_, same⟩
  rw [← grown]
  exact failed.append more

/-- A new host in the set has a cause. -/
theorem caused_step (among : s.Among (fun _ => True) (Timely s))
    (polled : (config.pinning serde).polls s event = true)
    (reacts : (config.pinning serde).react s event = ⟨now, .running next⟩) {key : Str}
    (mem : key ∈ next.pinned.store.hosts) : key ∈ s.pinned.store.hosts ∨ next.Caused key := by
  have timely := timely_step among polled reacts
  rcases react_cases polled reacts with rfl |
      ⟨index, answers, outcomes, past, op, later, found, rfl⟩ |
    ⟨_, rfl⟩ | ⟨outcomes, -, rfl⟩
  · exact .inl mem
  · rcases mem_pinnedAfter mem with old | ⟨host, rfl, same⟩
    · exact .inl old
    · obtain ⟨careful, mature⟩ := timely index _ trivial (getElem?_turned found _)
      obtain ⟨failed, asked⟩ : AutoPin.Allows past ⟨.io (.addAndPersist host), _⟩ :=
        careful.allowed rfl
      refine .inr ⟨mature (List.mem_append_left _ asked), _,
        List.mem_of_getElem? (getElem?_turned found _), host, failed.append _, same⟩
  · exact .inl mem
  · exact absurd mem not_mem_clear

/-- Every host in the set was in it at the start, or was pinned behind the grace period because a
connection met a failed handshake for it. -/
theorem pinned_hosts_have_cause (config : ProxyConfig) (serde : Serde) {pinned : PinnedState}
    {events : List PinningEvent} {outputs : List Empty} {final : PinningState}
    (execution : (config.pinning serde).Run ⟨pinned, 0, []⟩ events outputs (.running final))
    {key : Str} (mem : key ∈ final.pinned.store.hosts) :
    key ∈ pinned.store.hosts ∨ final.Caused key := by
  have invariant : final.Among (fun _ => True) (Timely final) ∧
      ∀ key ∈ final.pinned.store.hosts, key ∈ pinned.store.hosts ∨ final.Caused key := by
    refine execution.history (fun _ _ s => s.Among (fun _ => True) (Timely s) ∧
      ∀ key ∈ s.pinned.store.hosts, key ∈ pinned.store.hosts ∨ s.Caused key) ?_ ?_
    · exact ⟨fun index connection _ found => (by cases found), fun key mem => .inl mem⟩
    · intro _ _ s event now next _ ⟨among, causes⟩ polled reacts
      refine ⟨timely_step among polled reacts, fun key mem => ?_⟩
      rcases caused_step among polled reacts mem with old | new
      · exact (causes key old).imp_right fun caused => caused.step polled reacts
      · exact .inr new
  exact invariant.2 key mem

/-- A host that is pinned in a run of its own. -/
theorem sampleRejection_has_cause :
    ∃ outputs final, (ProxyConfig.pinning ⟨true, false⟩ Json.closedSerde).Run
        ⟨PinnedHosts.samplePinned, 0, []⟩ (sampleAcceptance ++ sampleRejection) outputs
        (.running final) ∧
      final.pinned.store.holds (ascii "mail.example") = true ∧
      final.Caused (ascii "mail.example") := by
  obtain ⟨outputs, status, execution, seen⟩ := Machine.exists_run
    (ProxyConfig.pinning ⟨true, false⟩ Json.closedSerde) ⟨PinnedHosts.samplePinned, 0, []⟩
    (sampleAcceptance ++ sampleRejection)
    (fun reaction => reaction.status.state?.map fun s =>
      s.pinned.store.hosts.contains (ascii "mail.example"))
    (show _ = some (some true) by decide +kernel)
  obtain ⟨final, reached, held⟩ := Option.map_eq_some_iff.mp seen
  cases Status.eq_running reached
  have key : normalizeHost (ascii "mail.example") = ascii "mail.example" := by decide +kernel
  refine ⟨outputs, final, execution, by rwa [PinnedHosts.holds, key], ?_⟩
  have cause := pinned_hosts_have_cause ⟨true, false⟩ Json.closedSerde execution
    (Std.ExtTreeSet.contains_iff_mem.mp held)
  exact cause.resolve_left Std.ExtTreeSet.not_mem_empty

end Runs

end PinningState

end PrivacyEngine
