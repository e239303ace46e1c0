import PrivacyEngine.Proxy.Connection
import PrivacyEngine.Store.ReceiptFile
import PrivacyEngine.Store.ReceiptLaws

/-!
# Receipts of sessions

A connection that has recorded an attempt owes its host the outcome until it has recorded one.  The
receipt of a host covers what all connections owe it, and keeps covering it unless a prune drops the
receipt in between.
-/

namespace PrivacyEngine

open Wire FileSystem Interaction Reactive ConnectionTask

/-! ## The debt of one connection -/

/-- What is owed to which host. -/
abbrev Debt : Type := Option (Str × Owed)

/-- What an attempt owes when its tunnel has ended: nothing if it falls back to a tunnel that is not
intercepted. -/
def Intercepted.owed (intercepted : Intercepted) : Option Owed :=
  match intercepted.result with
  | .ok () => some .outcome
  | .error error =>
      if error.isUpstreamTlsHandshakeFailure then none
      else if error.isClientTlsHandshakeFailure then some .refusal
      else some .outcome

/-- An interception that has ended owes at most one outcome. -/
theorem Intercepted.owed_le (intercepted : Intercepted) :
    Owed.outcomes intercepted.owed ≤ 1 ∧ Owed.refusals intercepted.owed = 0 := by
  unfold Intercepted.owed
  split
  · exact ⟨Nat.le_refl 1, rfl⟩
  · split
    · exact ⟨Nat.zero_le 1, rfl⟩
    · split
      · exact ⟨Nat.le_refl 1, rfl⟩
      · exact ⟨Nat.le_refl 1, rfl⟩

namespace Debt

variable (debt : Debt)

/-- The debt behind a call. -/
def record (host : Str) (entry : Record) : Option Debt :=
  if entry.Even then some debt
  else if debt.all fun owing => owing.1 = host then
    (Owed.settle (debt.map Prod.snd) entry).map fun owed => owed.map (host, ·)
  else none

def watch : (op : ConnectionOp) → op.Answer → Option Debt
  | .record host entry, _ => debt.record host entry
  | .interceptTlsTunnel _ _, intercepted =>
      match debt with
      | some (host, .outcome) => some (intercepted.owed.map (host, ·))
      | debt => some debt
  | _, _ => some debt

end Debt

section Silent

/-- The task changes no debt. -/
def Silent {α : Type} (task : ConnectionTask α) : Prop :=
  ∀ debt, Program.Meets Debt.watch (fun after _ => after = debt) debt task

variable {α β : Type} {config : ProxyConfig} {host targetAddr : Str}

theorem silent_pure (value : α) : Silent (pure value : ConnectionTask α) := fun _ => rfl

theorem silent_attempt (op : IoOp) : Silent (attempt op) := fun debt _ => ⟨debt, rfl, rfl⟩

theorem silent_increment (counter : SessionCounter) : Silent (increment counter) :=
  fun debt _ => ⟨debt, rfl, rfl⟩

theorem Silent.bind {task : ConnectionTask α} {later : α → ConnectionTask β} (first : Silent task)
    (rest : ∀ value, Silent (later value)) : Silent (task >>= later : ConnectionTask β) := by
  intro debt
  refine Program.meets_exceptBind.mpr ((first debt).mono ?_)
  rintro after result rfl
  cases result with
  | ok value => exact rest value after
  | error error => rfl

theorem Silent.meets {task : ConnectionTask α} (silent : Silent task) {debt : Debt}
    {post : Debt → Except IoError α → Prop} (holds : ∀ result, post debt result) :
    Program.Meets Debt.watch post debt task := by
  refine (silent debt).mono ?_
  rintro after result rfl
  exact holds result

theorem silent_record {entry : Record} (even : entry.Even) : Silent (config.record host entry) := by
  intro debt
  rw [ProxyConfig.record]
  split
  · exact fun answer => ⟨debt, if_pos even, rfl⟩
  · rfl

theorem Receipt.Counted.even {entry : Receipt} (counted : entry.Counted) : entry.record.Even := by
  cases entry with
  | consentEnforcement mode setCookieCount => exact counted.2
  | policySetCookie mode setCookieCount => exact counted.2
  | _ => trivial

theorem silent_sendEarlyBytes (buf : Bytes) : Silent (sendEarlyBytes buf) := by
  rw [sendEarlyBytes]
  split
  · exact silent_pure ()
  · exact silent_attempt _

theorem silent_copyTunnel : Silent copyTunnel := fun debt _ => ⟨debt, rfl, rfl⟩

theorem silent_tunnel (initial : Option Bytes) : Silent (tunnel targetAddr initial) :=
  (silent_increment _).bind fun _ => (silent_attempt _).bind fun _ =>
    (silent_sendEarlyBytes _).bind fun _ => silent_copyTunnel

theorem silent_connectPassthrough (buffered : Bytes) :
    Silent (connectPassthrough targetAddr buffered) := by
  refine (silent_increment _).bind fun _ => ?_
  have connects : Silent (ask (.io (.connect targetAddr))) := fun debt _ => ⟨debt, rfl, rfl⟩
  refine connects.bind fun connected => ?_
  cases connected with
  | error error => exact silent_attempt _
  | ok connected =>
      exact (silent_attempt _).bind fun _ => (silent_sendEarlyBytes _).bind fun _ =>
        silent_copyTunnel

theorem silent_autoPin : Silent (config.autoPin host) := by
  have asks : Silent (ask .inGracePeriod) := fun debt _ => ⟨debt, rfl, rfl⟩
  refine asks.bind fun young => ?_
  split
  · exact silent_pure ()
  · refine (silent_attempt (.addAndPersist host)).bind fun pinned => ?_
    split
    · exact (silent_increment _).bind fun _ => silent_record trivial
    · exact silent_pure ()

/-- A routing decision is for one of the two routes. -/
theorem even_routing (flow : Flow) (decision : TlsRoutingDecision) (reason : Str) :
    (Record.tlsRoutingDecision flow.asStr decision.asAction reason).Even := by
  cases decision with
  | attemptMitm => exact .inl rfl
  | passthrough => exact .inr rfl

theorem silent_decideConnect (early : Bool) : Silent (config.decideConnect host early) :=
  (silent_attempt (.contains host)).bind fun _ =>
    (silent_record (even_routing ..)).bind fun _ => silent_pure _

end Silent

/-! ## The exits of a session -/

section Exits

variable {config : ProxyConfig} {host targetAddr : Str} {debt after : Debt}
  {post : Debt → Except IoError Unit → Prop}

/-- The debt, when receipts are kept. -/
def ProxyConfig.owing (config : ProxyConfig) (debt : Debt) : Debt :=
  if config.receiptsStore then debt else none

theorem ProxyConfig.owing_none : config.owing none = none := ite_self none

namespace Debt

theorem meets_record {entry : Record} (records : debt.record host entry = some after)
    (holds : post (config.owing after) (.ok ())) :
    Program.Meets watch post (config.owing debt) (config.record host entry) := by
  rw [ProxyConfig.record]
  by_cases kept : config.receiptsStore = true
  · simp only [kept, if_true, ProxyConfig.owing] at holds ⊢
    exact fun answer => ⟨after, records, holds⟩
  · simp only [kept, ProxyConfig.owing] at holds ⊢
    exact holds

theorem meets_recordAll {receipts : List Receipt} (counted : ∀ entry ∈ receipts, entry.Counted)
    (holds : post debt (.ok ())) :
    Program.Meets watch post debt (config.recordAll host receipts) := by
  rw [ProxyConfig.recordAll]
  by_cases kept : config.receiptsStore = true
  · rw [if_pos kept]
    refine Program.meets_lift.mpr (Program.meets_performAll (fun entry mem _ => ?_) holds)
    exact if_pos (counted entry mem).even
  · rw [if_neg kept]
    exact holds

theorem meets_increment {counter : SessionCounter} (holds : post debt (.ok ())) :
    Program.Meets watch post debt (increment counter) := fun _ => ⟨debt, rfl, holds⟩

/-- The interception ends the tunnel, with an outcome that is owed or with a fallback. -/
theorem watch_intercept (intercepted : Intercepted) :
    watch (config.owing (some (host, .outcome))) (.interceptTlsTunnel targetAddr host) intercepted =
      some (config.owing (intercepted.owed.map (host, ·))) := by
  by_cases kept : config.receiptsStore = true
  · simp [ProxyConfig.owing, kept, watch]
  · simp [ProxyConfig.owing, kept, watch]

/-- The task leaves no debt. -/
def Settles (task : ConnectionTask Unit) : Prop :=
  Program.Meets watch (fun debt _ => debt = none) none task

theorem Settles.of_silent {task : ConnectionTask Unit} (silent : Silent task) : Settles task :=
  silent none

/-- What is behind a task that changes no debt settles. -/
theorem Settles.behind {α : Type} {task : ConnectionTask α} {later : α → ConnectionTask Unit}
    (silent : Silent task) (rest : ∀ value, Settles (later value)) :
    Settles (task >>= later) := by
  refine meets_then (silent.meets fun result => ?_)
  cases result with
  | ok value => exact rest value
  | error error => rfl

/-- A session records the outcome of its attempt. -/
theorem settles_runMitmIntercept : Settles (config.runMitmIntercept targetAddr host) := by
  have attempted : record none host .mitmAttempt = some (some (host, .outcome)) := rfl
  have succeeded : record (some (host, .outcome)) host .mitmSuccess = some none := by
    simp [record, Record.Even, Owed.settle]
  have failed : record (some (host, .outcome)) host .mitmFailure = some none := by
    simp [record, Record.Even, Owed.settle]
  have refused : record (some (host, .refusal)) host .mitmFailure =
      some (some (host, .reject)) := by
    simp [record, Record.Even, Owed.settle]
  have rejected : record (some (host, .reject)) host .clientTlsReject = some none := by
    simp [record, Record.Even, Owed.settle]
  unfold Settles
  rw [← config.owing_none]
  refine meets_then (meets_increment (meets_then (meets_record attempted (meets_then ?_))))
  intro intercepted
  refine ⟨_, watch_intercept intercepted, meets_then (meets_recordAll intercepted.counted ?_)⟩
  cases result : intercepted.result with
  | ok done =>
      simp only [Intercepted.owed, result, Option.map_some, Program.orFail]
      exact meets_then (meets_increment (meets_record succeeded rfl))
  | error error =>
      by_cases benign : error.isBenignPeerClose = true
      · obtain ⟨upstream, client⟩ := MitmError.handshakes_of_benign benign
        simp only [Intercepted.owed, result, benign, upstream, client, Bool.false_eq_true, if_false,
          if_true, Option.map_some, Program.orFail]
        exact meets_then (meets_increment (meets_record succeeded rfl))
      · by_cases upstream : error.isUpstreamTlsHandshakeFailure = true
        · simp only [Intercepted.owed, result, benign, upstream, Bool.false_eq_true, if_false,
            if_true, Option.map_none, Program.orFail, config.owing_none]
          exact Settles.of_silent <| silent_autoPin.bind fun _ =>
            (silent_increment _).bind fun _ => silent_tunnel none
        · by_cases client : error.isClientTlsHandshakeFailure = true
          · simp only [Intercepted.owed, result, benign, upstream, client, Bool.false_eq_true,
              if_false, if_true, Option.map_some, Program.orFail]
            refine meets_then (meets_increment (meets_then (meets_record refused ?_)))
            refine meets_then (meets_increment (meets_then (meets_record rejected ?_)))
            rw [config.owing_none]
            exact silent_autoPin none
          · simp only [Intercepted.owed, result, benign, upstream, client, Bool.false_eq_true,
              if_false, Option.map_some, Program.orFail]
            exact meets_then (meets_increment (meets_then (meets_record failed rfl)))

theorem settles_handleConnectTunnel : Settles config.handleConnectTunnel := by
  refine .behind (silent_attempt _) fun read => ?_
  obtain ⟨requestHead, buffered⟩ := read
  simp only
  split
  · exact rfl
  · split
    · exact rfl
    · rename_i targetAddr _
      split
      · exact .of_silent (silent_connectPassthrough _)
      · refine .behind (silent_decideConnect _) fun pinned => ?_
        split
        · exact .behind (silent_attempt _) fun _ => settles_runMitmIntercept
        · exact .of_silent (silent_connectPassthrough _)

theorem settles_handleTransparentTls {sni : Str} : Settles (config.handleTransparentTls sni) := by
  refine .behind (silent_attempt _) fun pinned => ?_
  split
  · exact .behind (silent_record (even_routing ..)) fun _ => settles_runMitmIntercept
  · exact .behind (silent_record (even_routing ..)) fun _ => .of_silent (silent_tunnel _)

/-- A connection that has ended owes nothing. -/
theorem settles_handleConnection : Settles config.handleConnection := by
  refine .behind (silent_attempt .peek) fun peeked => ?_
  split
  · exact rfl
  · split
    · exact settles_handleConnectTunnel
    · exact settles_handleTransparentTls
    · exact .of_silent (silent_attempt .handleHttpProxy)
    · exact rfl

end Debt

end Exits

end PrivacyEngine
