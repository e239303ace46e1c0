import PrivacyEngine.Store.Receipts

/-!
# Laws of a receipt

Counters of a receipt bound each other.  Whoever has recorded an attempt owes its outcome, and
whoever has recorded a handshake that the client refused as a failure owes the refusal; what is owed
counts on the smaller side of a law.  A law whose larger counter is saturated says nothing.
-/

namespace PrivacyEngine

open Wire

namespace HostReceipt

variable {receipt : HostReceipt}

/-- The number a counter shows. -/
def count (receipt : HostReceipt) (counter : ReceiptCounter) : Nat :=
  (receipt.counters counter).toNat

def Saturated (receipt : HostReceipt) (counter : ReceiptCounter) : Prop :=
  receipt.count counter = UInt64.size - 1

/-- Laws that do not depend on what is owed, below saturation. -/
structure Tallied (receipt : HostReceipt) : Prop where
  seen : receipt.Saturated .seenTotal ∨
    receipt.count .seenTotal =
      receipt.count .routingMitmTotal + receipt.count .routingPassthroughTotal
  blocked : receipt.Saturated .policySetCookieStrippedTotal ∨
    receipt.count .consentEnforcementBlockedTotal ≤ receipt.count .policySetCookieStrippedTotal
  reported : receipt.Saturated .policySetCookieWouldStripTotal ∨
    receipt.count .consentEnforcementReportOnlyTotal ≤
      receipt.count .policySetCookieWouldStripTotal
  headers : receipt.Saturated .policySetCookieHeadersTotal ∨
    receipt.count .policySetCookieStrippedTotal + receipt.count .policySetCookieWouldStripTotal ≤
      receipt.count .policySetCookieHeadersTotal

/-- All laws of a receipt, below saturation. -/
structure Consistent (receipt : HostReceipt) : Prop extends receipt.Tallied where
  attempts : receipt.Saturated .mitmAttemptTotal ∨
    receipt.count .mitmSuccessTotal + receipt.count .mitmFailureTotal ≤
      receipt.count .mitmAttemptTotal
  rejects : receipt.Saturated .mitmFailureTotal ∨
    receipt.count .mitmClientTlsRejectTotal ≤ receipt.count .mitmFailureTotal

/-- The laws of a receipt behind which some outcomes and some refusals are owed. -/
structure Covers (receipt : HostReceipt) (outcomes refusals : Nat) : Prop
    extends receipt.Tallied where
  attempts : receipt.Saturated .mitmAttemptTotal ∨
    receipt.count .mitmSuccessTotal + receipt.count .mitmFailureTotal + outcomes ≤
      receipt.count .mitmAttemptTotal
  rejects : receipt.Saturated .mitmFailureTotal ∨
    receipt.count .mitmClientTlsRejectTotal + refusals ≤ receipt.count .mitmFailureTotal

theorem Covers.of_consistent (consistent : receipt.Consistent) : receipt.Covers 0 0 :=
  ⟨consistent.toTallied, consistent.attempts, consistent.rejects⟩

theorem Covers.consistent {outcomes refusals : Nat} (covers : receipt.Covers outcomes refusals) :
    receipt.Consistent where
  toTallied := covers.toTallied
  attempts := covers.attempts.imp_right fun bounded => by omega
  rejects := covers.rejects.imp_right fun bounded => by omega

theorem Covers.mono {outcomes refusals fewer least : Nat}
    (covers : receipt.Covers outcomes refusals) (outcomes_le : fewer ≤ outcomes)
    (refusals_le : least ≤ refusals) : receipt.Covers fewer least where
  toTallied := covers.toTallied
  attempts := covers.attempts.imp_right fun bounded => by omega
  rejects := covers.rejects.imp_right fun bounded => by omega

/-- Nothing has been recorded, and nothing is owed. -/
theorem covers_new : ({} : HostReceipt).Covers 0 0 := by
  refine ⟨⟨?_, ?_, ?_, ?_⟩, ?_, ?_⟩ <;> exact .inr (by decide)

/-! ## Adding to a counter -/

theorem count_add (receipt : HostReceipt) (added counter : ReceiptCounter) (amount : UInt64) :
    (receipt.add added amount).count counter =
      if counter = added then min (receipt.count added + amount.toNat) 18446744073709551615
      else receipt.count counter := by
  by_cases here : counter = added
  · subst here
    simp only [count, add, Function.update_self, if_pos]
    by_cases fits : (receipt.counters counter).toNat + amount.toNat < UInt64.size
    · rw [toNat_saturatingAdd fits]
      simp only [UInt64.size] at fits
      omega
    · rw [saturatingAdd, if_neg fits]
      have top : (UInt64.ofNat (UInt64.size - 1)).toNat = 18446744073709551615 := by decide
      simp only [UInt64.size] at fits
      omega
  · simp [count, add, here]

theorem count_setLastSeen (receipt : HostReceipt) (now : UInt64) {counter : ReceiptCounter}
    (other : counter ≠ .lastSeenUnix) :
    (receipt.setLastSeen now).count counter = receipt.count counter := by
  simp [count, setLastSeen, other]

theorem count_setText (receipt : HostReceipt) (text : ReceiptText) (value : Str)
    (counter : ReceiptCounter) :
    (receipt.setText text value).count counter = receipt.count counter := rfl

/-- A count of at least one stays one as a `u64`. -/
theorem one_le_u64TryFrom {n : Nat} (positive : 0 < n) : 1 ≤ (u64TryFrom n).toNat := by
  unfold u64TryFrom
  split
  · rename_i fits
    rw [UInt64.toNat_ofNat', Nat.mod_eq_of_lt fits]
    exact positive
  · decide

end HostReceipt

/-! ## What is owed -/

/-- What is owed behind an attempt that has been recorded: its outcome, or for a handshake that the
client refused its failure and the refusal, or the refusal alone. -/
inductive Owed where
  | outcome
  | refusal
  | reject
  deriving DecidableEq

namespace Record

/-- Calls that add nothing to the smaller side of a law without the larger one. -/
def Even : Record → Prop
  | tlsRoutingDecision _ action _ => action = ascii "mitm" ∨ action = ascii "passthrough"
  | policySetCookie _ setCookieCount | consentEnforcement _ setCookieCount => 0 < setCookieCount
  | mitmAttempt | mitmSuccess | mitmFailure | clientTlsReject => False
  | _ => True

instance decidableEven (entry : Record) : Decidable entry.Even := by
  cases entry <;> unfold Even <;> infer_instance

end Record

namespace Owed

/-- What is owed behind a call that owes or settles something, unless it may not come now. -/
def settle : Option Owed → Record → Option (Option Owed)
  | none, .mitmAttempt => some (some outcome)
  | some outcome, .mitmSuccess => some none
  | some outcome, .mitmFailure => some none
  | some refusal, .mitmFailure => some (some reject)
  | some reject, .clientTlsReject => some none
  | _, _ => none

def outcomes : Option Owed → Nat
  | some outcome | some refusal => 1
  | some reject | none => 0

def refusals : Option Owed → Nat
  | some reject => 1
  | some outcome | some refusal | none => 0

end Owed

namespace HostReceipt

variable {receipt : HostReceipt} {outcomes refusals : Nat}

/-- All laws as bounds on numbers. -/
theorem covers_iff : receipt.Covers outcomes refusals ↔
    (receipt.count .seenTotal = 18446744073709551615 ∨
      receipt.count .seenTotal =
        receipt.count .routingMitmTotal + receipt.count .routingPassthroughTotal) ∧
    (receipt.count .policySetCookieStrippedTotal = 18446744073709551615 ∨
      receipt.count .consentEnforcementBlockedTotal ≤
        receipt.count .policySetCookieStrippedTotal) ∧
    (receipt.count .policySetCookieWouldStripTotal = 18446744073709551615 ∨
      receipt.count .consentEnforcementReportOnlyTotal ≤
        receipt.count .policySetCookieWouldStripTotal) ∧
    (receipt.count .policySetCookieHeadersTotal = 18446744073709551615 ∨
      receipt.count .policySetCookieStrippedTotal +
        receipt.count .policySetCookieWouldStripTotal ≤
          receipt.count .policySetCookieHeadersTotal) ∧
    (receipt.count .mitmAttemptTotal = 18446744073709551615 ∨
      receipt.count .mitmSuccessTotal + receipt.count .mitmFailureTotal + outcomes ≤
        receipt.count .mitmAttemptTotal) ∧
    (receipt.count .mitmFailureTotal = 18446744073709551615 ∨
      receipt.count .mitmClientTlsRejectTotal + refusals ≤ receipt.count .mitmFailureTotal) :=
  ⟨fun ⟨⟨seen, blocked, reported, headers⟩, attempts, rejects⟩ =>
    ⟨seen, blocked, reported, headers, attempts, rejects⟩,
   fun ⟨seen, blocked, reported, headers, attempts, rejects⟩ =>
    ⟨⟨seen, blocked, reported, headers⟩, attempts, rejects⟩⟩

theorem Covers.setLastSeen (covers : receipt.Covers outcomes refusals) (now : UInt64) :
    (receipt.setLastSeen now).Covers outcomes refusals := by
  rw [covers_iff] at covers ⊢
  simpa [count_setLastSeen] using covers

theorem Covers.touch (covers : receipt.Covers outcomes refusals) {action : Str}
    (routed : action = ascii "mitm" ∨ action = ascii "passthrough") (flow reason : Str)
    (now : UInt64) : (receipt.touch flow action reason now).Covers outcomes refusals := by
  have apart : ascii "passthrough" ≠ ascii "mitm" := by decide
  rw [covers_iff] at covers ⊢
  rcases routed with rfl | rfl
  · simp only [HostReceipt.touch, if_true, count_add, UInt64.toNat_one, count_setText,
      reduceCtorEq, if_false, ne_eq, not_false_eq_true, count_setLastSeen]
    omega
  · simp only [HostReceipt.touch, apart, if_true, count_add, UInt64.toNat_one, count_setText,
      reduceCtorEq, if_false, ne_eq, not_false_eq_true, count_setLastSeen]
    omega

/-- A call that adds evenly leaves what is owed covered. -/
theorem Covers.update_even (covers : receipt.Covers outcomes refusals) {entry : Record}
    (even : entry.Even) (now : UInt64) : (entry.update receipt now).Covers outcomes refusals := by
  cases entry with
  | tlsRoutingDecision flow action reason => exact covers.touch even flow reason now
  | mitmAttempt => exact even.elim
  | mitmSuccess => exact even.elim
  | mitmFailure => exact even.elim
  | clientTlsReject => exact even.elim
  | policySetCookie mode headers =>
      have counted := one_le_u64TryFrom even
      rw [covers_iff] at covers ⊢
      cases mode <;>
        simp only [Record.update, count_add, UInt64.toNat_one, if_true, reduceCtorEq, if_false] <;>
        omega
  | consentEnforcement mode headers =>
      have counted := one_le_u64TryFrom even
      rw [covers_iff] at covers ⊢
      cases mode <;>
        simp only [Record.update, count_add, UInt64.toNat_one, if_true, reduceCtorEq, if_false] <;>
        omega
  | bodyRewrite mode details =>
      rw [covers_iff] at covers ⊢
      cases mode <;>
        simpa only [Record.update, count_add, if_true, reduceCtorEq, if_false] using covers
  | _ =>
      rw [covers_iff] at covers ⊢
      simpa only [Record.update, count_add, if_true, reduceCtorEq, if_false] using covers

/-- A call that settles what is owed, or adds to it, leaves what is owed then covered. -/
theorem Covers.update_settle {owed after : Option Owed} {entry : Record} (now : UInt64)
    (settles : Owed.settle owed entry = some after)
    (covers : receipt.Covers (outcomes + Owed.outcomes owed) (refusals + Owed.refusals owed)) :
    (entry.update receipt now).Covers (outcomes + Owed.outcomes after)
      (refusals + Owed.refusals after) := by
  unfold Owed.settle at settles
  split at settles
  case h_6 => cases settles
  all_goals
    cases settles
    rw [covers_iff] at covers ⊢
    simp only [Record.update, count_add, UInt64.toNat_one, Owed.outcomes, Owed.refusals, if_true,
      reduceCtorEq, if_false] at covers ⊢
    omega

end HostReceipt

/-! ## One host of a store -/

/-- The receipt of a host, which is a new one where the host is not listed. -/
def Receipts.receiptOf (hosts : Receipts) (key : Str) : HostReceipt := (hosts[key]?).getD {}

namespace ReceiptStore

theorem record_self {store : ReceiptStore} {host : Str} (filled : normalizeHost host ≠ [])
    (entry : Record) (now : UInt64) :
    (store.record host entry now).hosts.receiptOf (normalizeHost host) =
      (entry.update (store.hosts.receiptOf (normalizeHost host)) now).setLastSeen now := by
  simp [record, filled, Receipts.receiptOf]

theorem record_of_ne {store : ReceiptStore} {host key : Str} (other : normalizeHost host ≠ key)
    (entry : Record) (now : UInt64) :
    (store.record host entry now).hosts.receiptOf key = store.hosts.receiptOf key := by
  by_cases skipped : normalizeHost host = []
  · simp [record, skipped]
  · simp [record, skipped, Receipts.receiptOf, Std.ExtTreeMap.getElem?_insert,
      Std.LawfulEqCmp.compare_eq_iff_eq, other]

/-- Pruning keeps a receipt or leaves nothing of it. -/
theorem prune_cases (hosts : Receipts) (maxAgeSecs now : UInt64) (key : Str) :
    (pruneStaleHosts hosts maxAgeSecs now)[key]? = hosts[key]? ∨
      key ∈ hosts ∧ (pruneStaleHosts hosts maxAgeSecs now)[key]? = none := by
  have filtered : (pruneStaleHosts hosts maxAgeSecs now)[key]? = (hosts[key]?).filter fun receipt =>
      decide (receipt.counters .lastSeenUnix ≥ saturatingSub now maxAgeSecs) :=
    Std.ExtTreeMap.getElem?_filter'
  rw [filtered]
  cases held : hosts[key]? with
  | none => exact .inl rfl
  | some receipt =>
      rw [Option.filter_some]
      split
      · exact .inl rfl
      · exact .inr ⟨Std.ExtTreeMap.mem_iff_isSome_getElem?.mpr (by simp [held]), rfl⟩

end ReceiptStore

end PrivacyEngine
