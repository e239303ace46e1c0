import Mathlib.Algebra.BigOperators.Group.List.Basic
import PrivacyEngine.Proxy.ReceiptSessions

/-!
# Receipts over whole runs

Connections, the DNS filter, flushes and restarts share one store and one file.  In any order of
their steps every receipt stays consistent, as long as no prune drops the receipt of a host that a
connection still owes something and no task opens the temporary file before all older ones have
ended.
-/

namespace PrivacyEngine

open Wire FileSystem Interaction Reactive

/-! ## Steps -/

/-- The store with its flushes, and the connections accepted since the last start. -/
structure ReceiptService where
  receipts : FlushState
  connections : List Connection

inductive ServiceEvent where
  | accept
  /-- A connection performs its next operation. -/
  | act (index : Nat) (answers : ∀ op : ConnectionOp, op.Answer) (now : UInt64)
  /-- A call of the DNS filter, or a step of a flush. -/
  | flush (event : FlushEvent)
  /-- The process starts again and finds the file that is there. -/
  | restart

/-- Calls of the DNS filter. -/
def Record.isDns : Record → Bool
  | dnsBlock | dnsReportOnly | dnsCnameUncloaked => true
  | _ => false

/-- Events that no connection takes part in. -/
def FlushEvent.isOwn : FlushEvent → Bool
  | record call => call.entry.isDns
  | _ => true

/-- The store behind an operation of a connection. -/
def ReceiptStore.perform (store : ReceiptStore) (now : UInt64) : ConnectionEvent → ReceiptStore
  | ⟨.record host entry, _⟩ => store.record host entry now
  | _ => store

namespace ReceiptService

/-- Nothing has been recorded yet. -/
def start (volume : Volume) : ReceiptService := ⟨⟨⟨∅, false⟩, volume, [], []⟩, []⟩

def resume (s : ReceiptService) : Status FlushState Empty → Status ReceiptService Empty
  | .running receipts => .running { s with receipts }
  | .halted verdict => .halted verdict

variable (env : FlushEnv) (config : ProxyConfig)

def service : Machine ReceiptService ServiceEvent FlushOutput Empty where
  polls s
    | .accept => true
    | .act index answers _ => (Process.turn s.connections index answers).isSome
    | .flush event => event.isOwn && FlushEnv.polls s.receipts event
    | .restart => (env.load s.receipts.volume).isOk
  react s
    | .accept =>
        ⟨[], .running
          { s with connections := s.connections ++ [Process.start config.handleConnection] }⟩
    | .act index answers now =>
        match Process.turn s.connections index answers with
        | some (event, connections) =>
            ⟨[], .running
              { receipts := { s.receipts with store := s.receipts.store.perform now event }
                connections }⟩
        | none => ⟨[], .running s⟩
    | .flush event =>
        ⟨(env.react s.receipts event).outputs, s.resume (env.react s.receipts event).status⟩
    | .restart =>
        match env.load s.receipts.volume with
        | .ok receipts => ⟨[], .running { receipts, connections := [] }⟩
        | .error _ => ⟨[], .running s⟩

end ReceiptService

def Connection.debt (connection : Connection) : Debt :=
  (observe Debt.watch none connection.past).getD none

namespace ReceiptService

/-- A prune keeps the receipts of hosts to which a connection owes something, and a task opens the
temporary file only when all older tasks have ended. -/
def KeepsOwed (s : ReceiptService) : ServiceEvent → Prop
  | .flush (.prune _ now) =>
      ∀ connection ∈ s.connections, ∀ owing ∈ connection.debt,
        normalizeHost owing.1 ∈ s.receipts.store.hosts →
        normalizeHost owing.1 ∈
          ReceiptStore.pruneStaleHosts s.receipts.store.hosts (6 * 3600) now
  | .flush (.create task _ _) => task = 0
  | _ => True

end ReceiptService

/-! ## What is owed to one host -/

namespace Debt

/-- What a debt means for the host under a key. -/
def owedTo (debt : Debt) (key : Str) : Option Owed :=
  match debt with
  | some (host, owed) => if normalizeHost host = key ∧ key ≠ [] then some owed else none
  | none => none

variable {debt after : Debt} {store : ReceiptStore} {key : Str} {outcomes refusals : Nat}

/-- A call keeps every host covered that was covered before. -/
theorem covers_record {host : Str} {entry : Record} (records : debt.record host entry = some after)
    (now : UInt64)
    (covers : (store.hosts.receiptOf key).Covers (outcomes + Owed.outcomes (debt.owedTo key))
      (refusals + Owed.refusals (debt.owedTo key))) :
    ((store.record host entry now).hosts.receiptOf key).Covers
      (outcomes + Owed.outcomes (after.owedTo key))
      (refusals + Owed.refusals (after.owedTo key)) := by
  unfold Debt.record at records
  by_cases here : normalizeHost host = key
  · subst here
    by_cases skipped : normalizeHost host = []
    · have same : ∀ debt : Debt, debt.owedTo (normalizeHost host) = none := by
        intro debt
        rcases debt with - | ⟨owing, owed⟩ <;> simp [owedTo, skipped]
      have kept : store.record host entry now = store := if_pos skipped
      rw [same after, kept]
      rwa [same debt] at covers
    · rw [ReceiptStore.record_self skipped]
      refine HostReceipt.Covers.setLastSeen ?_ now
      split at records
      · rename_i even
        cases records
        exact covers.update_even even now
      · split at records
        · rename_i all
          obtain ⟨owed, settles, rfl⟩ := Option.map_eq_some_iff.mp records
          have before : debt.owedTo (normalizeHost host) = debt.map Prod.snd := by
            rcases debt with - | ⟨owing, owed⟩
            · rfl
            · obtain rfl : owing = host := by simpa using all
              simp [owedTo, skipped]
          have behind : owedTo (owed.map (host, ·)) (normalizeHost host) = owed := by
            cases owed <;> simp [owedTo, skipped]
          rw [before] at covers
          rw [behind]
          exact covers.update_settle now settles
        · cases records
  · rw [ReceiptStore.record_of_ne here]
    have same : after.owedTo key = debt.owedTo key := by
      split at records
      · cases records
        rfl
      · split at records
        · rename_i all
          obtain ⟨owed, -, rfl⟩ := Option.map_eq_some_iff.mp records
          have none_left : owedTo (owed.map (host, ·)) key = none := by
            cases owed <;> simp [owedTo, here]
          rw [none_left]
          rcases debt with - | ⟨owing, owed⟩
          · rfl
          · obtain rfl : owing = host := by simpa using all
            simp [owedTo, here]
        · cases records
    rwa [same]

/-- The end of an interception can only forgive what is owed. -/
theorem covers_intercept {host targetAddr : Str} {intercepted : Intercepted}
    (watched : debt.watch (.interceptTlsTunnel targetAddr host) intercepted = some after)
    {receipt : HostReceipt} (covers : receipt.Covers (outcomes + Owed.outcomes (debt.owedTo key))
      (refusals + Owed.refusals (debt.owedTo key))) :
    receipt.Covers (outcomes + Owed.outcomes (after.owedTo key))
      (refusals + Owed.refusals (after.owedTo key)) := by
  simp only [watch] at watched
  split at watched
  · rename_i owing
    cases watched
    obtain ⟨one, none_refused⟩ := intercepted.owed_le
    by_cases here : normalizeHost owing = key ∧ key ≠ []
    · have behind : owedTo (intercepted.owed.map (owing, ·)) key = intercepted.owed := by
        cases intercepted.owed <;> simp [owedTo, here]
      rw [behind, none_refused]
      rw [show owedTo (some (owing, .outcome)) key = some .outcome from if_pos here] at covers
      exact covers.mono (Nat.add_le_add_left one _) (Nat.le_refl _)
    · have behind : owedTo (intercepted.owed.map (owing, ·)) key = none := by
        cases intercepted.owed <;> simp [owedTo, here]
      rw [show owedTo (some (owing, .outcome)) key = none from if_neg here] at covers
      rwa [behind]
  · cases watched
    exact covers

/-- An operation keeps every host covered that was covered before. -/
theorem covers_perform {op : ConnectionOp} {answer : op.Answer}
    (watched : debt.watch op answer = some after) (now : UInt64)
    (covers : (store.hosts.receiptOf key).Covers (outcomes + Owed.outcomes (debt.owedTo key))
      (refusals + Owed.refusals (debt.owedTo key))) :
    ((store.perform now ⟨op, answer⟩).hosts.receiptOf key).Covers
      (outcomes + Owed.outcomes (after.owedTo key))
      (refusals + Owed.refusals (after.owedTo key)) := by
  cases op with
  | record host entry => exact covers_record watched now covers
  | interceptTlsTunnel targetAddr host => exact covers_intercept watched covers
  | io op =>
      cases watched
      exact covers
  | inGracePeriod =>
      cases watched
      exact covers
  | increment counter =>
      cases watched
      exact covers

end Debt

/-! ## All connections -/

namespace ReceiptService

def outcomes (connections : List Connection) (key : Str) : Nat :=
  (connections.map fun connection => Owed.outcomes (connection.debt.owedTo key)).sum

def refusals (connections : List Connection) (key : Str) : Nat :=
  (connections.map fun connection => Owed.refusals (connection.debt.owedTo key)).sum

/-- Every receipt covers what all connections owe its host, and so do all snapshots. -/
structure Covered (env : FlushEnv) (s : ReceiptService) : Prop where
  follows : ∀ connection ∈ s.connections,
    connection.Follows Debt.watch (fun debt _ => debt = none) none connection.debt
  covers : ∀ key, (s.receipts.store.hosts.receiptOf key).Covers (outcomes s.connections key)
    (refusals s.connections key)
  orderly : env.Orderly HostReceipt.Consistent s.receipts

variable {env : FlushEnv} {config : ProxyConfig} {s : ReceiptService}

theorem Covered.consistent (covered : s.Covered env) :
    EachReceipt HostReceipt.Consistent s.receipts.store.hosts := by
  intro host receipt held
  have covers := (covered.covers host).consistent
  rwa [Receipts.receiptOf, held, Option.getD_some] at covers

theorem covered_start {volume : Volume} (fresh : volume.disk env.path = none) :
    (start volume).Covered env where
  follows connection mem := absurd mem List.not_mem_nil
  covers key := by
    have empty : (start volume).receipts.store.hosts.receiptOf key = {} := by
      simp [start, Receipts.receiptOf]
    rw [empty]
    exact HostReceipt.covers_new
  orderly := by
    refine ⟨by simp [start], by simp [start], by simp [start], fun content held => ?_⟩
    rw [show (start volume).receipts.volume = volume from rfl, fresh] at held
    cases held

theorem Covered.accept (covered : s.Covered env) :
    ({ s with connections := s.connections ++ [Process.start config.handleConnection] } :
      ReceiptService).Covered env := by
  have debt : Connection.debt (Process.start config.handleConnection) = none := rfl
  constructor
  case follows =>
    intro connection mem
    rcases List.mem_append.mp mem with old | new
    · exact covered.follows connection old
    · rw [List.mem_singleton.mp new, debt]
      exact Process.follows_start Debt.settles_handleConnection
  case covers =>
    intro key
    simpa [outcomes, refusals, debt, Debt.owedTo, Owed.outcomes, Owed.refusals] using
      covered.covers key
  case orderly => exact covered.orderly

/-- A connection takes its turn. -/
theorem Covered.act (covered : s.Covered env) {index : Nat}
    {answers : ∀ op : ConnectionOp, op.Answer} {event : ConnectionEvent}
    {connections : List Connection}
    (turns : Process.turn s.connections index answers = some (event, connections)) (now : UInt64) :
    ({ receipts := { s.receipts with store := s.receipts.store.perform now event }
       connections } : ReceiptService).Covered env := by
  obtain ⟨front, back, past, op, next, before, rfl, rfl⟩ := Process.turn_cases turns
  have follows := covered.follows
  have covers := covered.covers
  rw [before] at follows covers
  obtain ⟨after, watched, followed⟩ :=
    (follows ⟨past, .act op next⟩ (by simp)).turn (answers op)
  have debt : Connection.debt ⟨past ++ [⟨op, answers op⟩], next (answers op)⟩ = after := by
    rw [Connection.debt, followed.1]
    rfl
  constructor
  case follows =>
    intro connection mem
    rcases List.mem_append.mp mem with left | right
    · exact follows connection (List.mem_append_left _ left)
    · rcases List.mem_cons.mp right with rfl | right
      · rw [debt]
        exact followed
      · exact follows connection (by simp [right])
  case covers =>
    intro key
    have sums : ∀ (connection : Connection),
        outcomes (front ++ connection :: back) key =
            outcomes front key + outcomes back key + Owed.outcomes (connection.debt.owedTo key) ∧
          refusals (front ++ connection :: back) key =
            refusals front key + refusals back key +
              Owed.refusals (connection.debt.owedTo key) := by
      intro connection
      simp only [outcomes, refusals, List.map_append, List.map_cons, List.sum_append, List.sum_cons]
      omega
    have covers := covers key
    rw [(sums _).1, (sums _).2] at covers
    rw [(sums _).1, (sums _).2, debt]
    exact Debt.covers_perform watched now covers
  case orderly => exact covered.orderly.of_store _ _

/-- Nothing is owed to a host when no connection owes it anything. -/
theorem sums_eq_zero {connections : List Connection} {key : Str}
    (free : ∀ connection ∈ connections, connection.debt.owedTo key = none) :
    outcomes connections key = 0 ∧ refusals connections key = 0 := by
  unfold outcomes refusals
  constructor
  · refine List.sum_eq_zero fun amount mem => ?_
    obtain ⟨connection, listed, rfl⟩ := List.mem_map.mp mem
    rw [free connection listed]
    rfl
  · refine List.sum_eq_zero fun amount mem => ?_
    obtain ⟨connection, listed, rfl⟩ := List.mem_map.mp mem
    rw [free connection listed]
    rfl

/-- A prune drops only receipts of hosts to which nothing is owed. -/
theorem Covered.prune (covered : s.Covered env) {caller : Nat} {time : UInt64}
    (keeps : s.KeepsOwed (.flush (.prune caller time))) (key : Str) :
    ((ReceiptStore.pruneStaleHosts s.receipts.store.hosts (6 * 3600) time).receiptOf key).Covers
      (outcomes s.connections key) (refusals s.connections key) := by
  rcases ReceiptStore.prune_cases s.receipts.store.hosts (6 * 3600) time key with
    kept | ⟨listed, dropped⟩
  · rw [Receipts.receiptOf, kept]
    exact covered.covers key
  · have free : ∀ connection ∈ s.connections, connection.debt.owedTo key = none := by
      intro connection mem
      have held := keeps connection mem
      rcases debt : connection.debt with - | ⟨host, owed⟩
      · rfl
      · refine if_neg ?_
        rintro ⟨rfl, -⟩
        have found := held (host, owed) debt listed
        rw [Std.ExtTreeMap.mem_iff_isSome_getElem?, dropped] at found
        cases found
    obtain ⟨no_outcomes, no_refusals⟩ := sums_eq_zero free
    rw [Receipts.receiptOf, dropped, no_outcomes, no_refusals]
    exact HostReceipt.covers_new

/-- A call of the DNS filter adds evenly. -/
theorem Covered.dns (covered : s.Covered env) {call : RecordCall} (own : call.entry.isDns = true)
    (key : Str) :
    ((s.receipts.store.record call.host call.entry call.now).hosts.receiptOf key).Covers
      (outcomes s.connections key) (refusals s.connections key) := by
  have even : call.entry.Even := by
    cases entry : call.entry with
    | dnsBlock => trivial
    | dnsReportOnly => trivial
    | dnsCnameUncloaked => trivial
    | _ =>
        rw [entry] at own
        cases own
  exact Debt.covers_record (show Debt.record none call.host call.entry = some none from if_pos even)
    call.now (covered.covers key)

/-- A step of the store keeps everything covered, if a prune keeps what is owed. -/
theorem Covered.flush (covered : s.Covered env) {event : FlushEvent} (own : event.isOwn = true)
    (polled : FlushEnv.polls s.receipts event = true) (keeps : s.KeepsOwed (.flush event))
    {now : List FlushOutput} {next : FlushState}
    (reacts : env.react s.receipts event = ⟨now, .running next⟩) :
    ({ s with receipts := next } : ReceiptService).Covered env := by
  have inTurn : FlushEnv.InTurn event := by
    cases event with
    | create task generatedUnix outcome => exact keeps
    | _ => trivial
  have turn := FlushEnv.turn_of_react covered.orderly.waiting inTurn polled reacts
  constructor
  case follows => exact covered.follows
  case orderly => exact covered.orderly.step covered.consistent turn
  case covers =>
    intro key
    cases turn with
    | record call => exact covered.dns own key
    | prune caller time => exact covered.prune keeps key
    | _ => exact covered.covers key

/-- A restart finds consistent receipts, and no connection is left to owe anything. -/
theorem Covered.restart (covered : s.Covered env) (rejects : env.serde.RejectsCut)
    {receipts : FlushState} (loaded : env.load s.receipts.volume = .ok receipts) :
    ({ receipts, connections := [] } : ReceiptService).Covered env := by
  obtain ⟨each, orderly⟩ := covered.orderly.load rejects loaded
  refine ⟨by simp, fun key => ?_, orderly⟩
  cases held : receipts.store.hosts[key]? with
  | none =>
      rw [Receipts.receiptOf, held]
      exact HostReceipt.covers_new
  | some receipt =>
      rw [Receipts.receiptOf, held]
      exact .of_consistent (each key receipt held)

/-- A step keeps every receipt covered. -/
theorem Covered.step (covered : s.Covered env) {event : ServiceEvent}
    (rejects : env.serde.RejectsCut) (polled : (service env config).polls s event = true)
    (keeps : s.KeepsOwed event) {now : List FlushOutput} {next : ReceiptService}
    (reacts : (service env config).react s event = ⟨now, .running next⟩) : next.Covered env := by
  cases event with
  | accept =>
      cases reacts
      exact covered.accept
  | act index answers time =>
      simp only [service] at reacts
      split at reacts
      · rename_i event connections turns
        cases reacts
        exact covered.act turns time
      · cases reacts
        exact covered
  | flush event =>
      obtain ⟨own, polled⟩ := Bool.and_eq_true_iff.mp polled
      simp only [service] at reacts
      cases reaction : env.react s.receipts event with
      | mk outputs status =>
          cases status with
          | running receipts =>
              rw [reaction] at reacts
              cases reacts
              exact covered.flush own polled keeps reaction
          | halted verdict => cases verdict
  | restart =>
      simp only [service] at reacts
      split at reacts
      · rename_i receipts loaded
        cases reacts
        exact covered.restart rejects loaded
      · cases reacts
        exact covered

/-- In a run that keeps what is owed every receipt is consistent, whatever the order of its steps
and whatever fails. -/
theorem receipts_consistent (env : FlushEnv) (config : ProxyConfig)
    (rejects : env.serde.RejectsCut) {volume : Volume} (fresh : volume.disk env.path = none)
    {events : List ServiceEvent} {outputs : List FlushOutput} {final : ReceiptService}
    (execution : (service env config).Run (start volume) events outputs (.running final))
    (each : (service env config).EachStep KeepsOwed (start volume) events) (host : Str)
    (receipt : HostReceipt) (held : final.receipts.store.hosts[host]? = some receipt) :
    receipt.Consistent := by
  have covered : final.Covered env := by
    refine execution.history (fun events _ s =>
      (service env config).EachStep KeepsOwed (start volume) events → s.Covered env)
      (fun _ => covered_start fresh) ?_ each
    intro events outputs state event now next front kept polled reacts each
    exact (kept each.front).step rejects polled (each.last front) reacts
  exact covered.consistent host receipt held

instance decidableKeepsOwed (s : ReceiptService) (event : ServiceEvent) :
    Decidable (s.KeepsOwed event) :=
  match event with
  | .flush (.prune _ now) =>
      inferInstanceAs (Decidable (∀ connection ∈ s.connections, ∀ owing ∈ connection.debt,
        normalizeHost owing.1 ∈ s.receipts.store.hosts →
        normalizeHost owing.1 ∈
          ReceiptStore.pruneStaleHosts s.receipts.store.hosts (6 * 3600) now))
  | .flush (.create task _ _) => inferInstanceAs (Decidable (task = 0))
  | .flush (.record _) | .flush (.swap _) | .flush (.snapshot _) | .flush (.write _ _ _)
  | .flush (.close _ _) | .flush (.rename _ _) | .flush (.remove _ _) | .accept | .act _ _ _
  | .restart => isTrue trivial

/-! ### A session before and behind a prune -/

def sampleSessionConfig : ProxyConfig := ⟨true, true⟩

/-- The connection goes on for a number of operations. -/
def sampleActs (operations : Nat) (now : UInt64) : List ServiceEvent :=
  List.replicate operations (.act 0 (sampleAnswers (.ok ())) now)

/-- Up to the recorded attempt. -/
def sampleAttempt : List ServiceEvent := .accept :: sampleActs 7 10

def samplePrune (now : UInt64) : List ServiceEvent := [.flush (.swap 0), .flush (.prune 0 now)]

def sampleSessionEnv : FlushEnv := ⟨Json.closedSerde, sampleReceiptPath⟩

/-- The attempt, a prune that keeps it, its outcome, and a task that finds no space. -/
def sampleService : List ServiceEvent :=
  sampleAttempt ++ samplePrune 11 ++ sampleActs 3 12 ++
    [.flush (.snapshot 0), .flush (.create 0 13 (.error FlushEnv.sampleNoSpace))]

theorem sampleService_consistent :
    ∃ outputs final receipt,
      (service sampleSessionEnv sampleSessionConfig).Run (start FlushEnv.sampleVolume)
        sampleService outputs (.running final) ∧
      final.receipts.store.hosts[ascii "mail.example"]? = some receipt ∧
      receipt.count .mitmSuccessTotal = 1 ∧ receipt.Consistent := by
  obtain ⟨outputs, status, execution, seen⟩ := Machine.exists_run
    (service sampleSessionEnv sampleSessionConfig) (start FlushEnv.sampleVolume) sampleService
    (fun reaction => reaction.status.state?.bind fun s =>
      (s.receipts.store.hosts[ascii "mail.example"]?).map fun receipt =>
        receipt.count .mitmSuccessTotal)
    (show _ = some (some 1) by decide +kernel)
  obtain ⟨final, reached, found⟩ := Option.bind_eq_some_iff.mp seen
  obtain rfl := Status.eq_running reached
  obtain ⟨receipt, held, count⟩ := Option.map_eq_some_iff.mp found
  have each : (service sampleSessionEnv sampleSessionConfig).EachStep KeepsOwed
      (start FlushEnv.sampleVolume) sampleService := .of_checkEach (by decide +kernel)
  exact ⟨outputs, final, receipt, execution, held, count,
    receipts_consistent sampleSessionEnv sampleSessionConfig Json.rejectsCut_closedSerde rfl
      execution each _ _ held⟩

/-- More than six hours after the attempt a prune drops it, and the session ends with a success. -/
theorem long_session_is_inconsistent :
    ¬ ∀ (env : FlushEnv) (config : ProxyConfig) (volume : Volume) (events : List ServiceEvent)
      (outputs : List FlushOutput) (final : ReceiptService) (host : Str) (receipt : HostReceipt),
      env.serde.RejectsCut → volume.disk env.path = none →
      (service env config).Run (start volume) events outputs (.running final) →
      final.receipts.store.hosts[host]? = some receipt → receipt.Consistent := by
  intro consistent
  obtain ⟨outputs, status, execution, seen⟩ := Machine.exists_run
    (service sampleSessionEnv sampleSessionConfig) (start FlushEnv.sampleVolume)
    (sampleAttempt ++ samplePrune 21611 ++ sampleActs 3 21612)
    (fun reaction => reaction.status.state?.bind fun s =>
      (s.receipts.store.hosts[ascii "mail.example"]?).map fun receipt =>
        (receipt.count .mitmAttemptTotal, receipt.count .mitmSuccessTotal))
    (show _ = some (some (0, 1)) by decide +kernel)
  obtain ⟨final, reached, found⟩ := Option.bind_eq_some_iff.mp seen
  obtain rfl := Status.eq_running reached
  obtain ⟨receipt, held, counts⟩ := Option.map_eq_some_iff.mp found
  obtain ⟨attempts, successes⟩ := Prod.mk.inj counts
  have law := (consistent _ _ _ _ _ _ _ _ Json.rejectsCut_closedSerde rfl execution held).attempts
  simp only [HostReceipt.Saturated, attempts, successes] at law
  rcases law with saturated | bounded
  · exact absurd saturated (by decide)
  · omega

end ReceiptService

end PrivacyEngine
