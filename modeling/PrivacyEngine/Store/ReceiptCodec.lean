import PrivacyEngine.Store.Receipts

/-!
# Receipts, field by field

The receipt of a host as it is declared, written and read: each field is spelled out once in the
declaration, once with its key in the writer, and once more with its key in the reader.  The table
of counters and texts that the store works on is the same receipt.
-/

namespace PrivacyEngine

open Wire

/-! ## Lost fields -/

/-- A value that the reader does not take for a field. -/
def ReceiptField.IllTyped : ReceiptField → Json → Prop
  | .counter _, value => value.asU64 = none
  | .text _, value => value.asStr = none

theorem ReceiptField.key_injective {field other : ReceiptField} (same : field.key = other.key) :
    field = other := by
  have increasing := Json.pairwise_of_increasing receiptFields_increasing
  have distinct : (receiptFields.map ReceiptField.key).Nodup := by
    refine increasing.imp fun {key other} below equal => ?_
    have self : compare other other = .eq := Std.ReflCmp.compare_self
    rw [equal, self] at below
    cases below
  exact List.inj_on_of_nodup_map distinct (mem_receiptFields field) (mem_receiptFields other) same

namespace HostReceipt

/-- The receipt with one field as it is in a new receipt. -/
def reset (receipt : HostReceipt) : ReceiptField → HostReceipt
  | .counter field => { receipt with counters := Function.update receipt.counters field 0 }
  | .text field => { receipt with texts := Function.update receipt.texts field none }

/-- An object that holds nothing of use for one field, and everything else of a receipt, is read
as the receipt with that field reset. -/
theorem fromJson_of_lost {receipt : HostReceipt} {field : ReceiptField} {value : Json}
    (kept : ∀ other, other ≠ field → value.get other.key = receipt.asJson.get other.key)
    (lost : ∀ held, value.get field.key = some held → field.IllTyped held) :
    fromJson value = receipt.reset field := by
  have counters : (fromJson value).counters = (receipt.reset field).counters := by
    funext counter
    by_cases here : .counter counter = field
    · subst here
      have unread : (value.get counter.key).bind Json.asU64 = none := by
        cases held : value.get counter.key with
        | none => rfl
        | some held' => exact lost held' held
      simp [fromJson, unread, reset]
    · have same : (fromJson value).counters counter = (fromJson receipt.asJson).counters counter :=
        congrArg (fun held => (held.bind Json.asU64).getD 0) (kept _ here)
      rw [same, fromJson_asJson]
      cases field with
      | counter field =>
          have other : counter ≠ field := fun equal => here (congrArg _ equal)
          exact (Function.update_of_ne other _ _).symm
      | text field => rfl
  have texts : (fromJson value).texts = (receipt.reset field).texts := by
    funext text
    by_cases here : .text text = field
    · subst here
      have unread : (value.get text.key).bind Json.asStr = none := by
        cases held : value.get text.key with
        | none => rfl
        | some held' => exact lost held' held
      simp [fromJson, unread, reset]
    · have same : (fromJson value).texts text = (fromJson receipt.asJson).texts text :=
        congrArg (fun held => held.bind Json.asStr) (kept _ here)
      rw [same, fromJson_asJson]
      cases field with
      | counter field => rfl
      | text field =>
          have other : text ≠ field := fun equal => here (congrArg _ equal)
          exact (Function.update_of_ne other _ _).symm
  calc fromJson value = ⟨(fromJson value).counters, (fromJson value).texts⟩ := rfl
    _ = receipt.reset field := by rw [counters, texts]

theorem fromJson_remove (receipt : HostReceipt) (field : ReceiptField) :
    fromJson (receipt.asJson.remove field.key) = receipt.reset field := by
  refine fromJson_of_lost (fun other differs => ?_) fun held found => ?_
  · rw [Json.get_remove, if_neg fun same => differs (ReceiptField.key_injective same)]
  · rw [Json.get_remove, if_pos rfl] at found
    cases found

theorem fromJson_replace (receipt : HostReceipt) {field : ReceiptField} {value : Json}
    (illTyped : field.IllTyped value) :
    fromJson (receipt.asJson.replace field.key value) = receipt.reset field := by
  refine fromJson_of_lost (fun other differs => ?_) fun held found => ?_
  · rw [Json.get_replace, if_neg fun same => differs (ReceiptField.key_injective same)]
  · rw [Json.get_replace, if_pos rfl, get_asJson] at found
    cases found
    exact illTyped

/-- Every key of a written receipt is the key of a field. -/
theorem field_of_get_asJson {receipt : HostReceipt} {key : Str} {value : Json}
    (held : receipt.asJson.get key = some value) : ∃ field : ReceiptField, field.key = key := by
  obtain ⟨before, behind, members, -⟩ := List.lookup_eq_some_iff.mp held
  have mem : (key, value) ∈ receiptFields.map fun field => (field.key, receipt.value field) := by
    simp [members]
  obtain ⟨field, -, same⟩ := List.mem_map.mp mem
  exact ⟨field, congrArg Prod.fst same⟩

end HostReceipt

/-! ## The declaration -/

/-- `HostReceipt` as it is declared. -/
structure HostReceiptFields where
  seenTotal : UInt64 := 0
  routingMitmTotal : UInt64 := 0
  routingPassthroughTotal : UInt64 := 0
  mitmAttemptTotal : UInt64 := 0
  mitmSuccessTotal : UInt64 := 0
  mitmFailureTotal : UInt64 := 0
  mitmClientTlsRejectTotal : UInt64 := 0
  hostAutoPinnedTotal : UInt64 := 0
  policySetCookieWouldStripTotal : UInt64 := 0
  policySetCookieStrippedTotal : UInt64 := 0
  policySetCookieHeadersTotal : UInt64 := 0
  dnsBlockedTotal : UInt64 := 0
  dnsReportOnlyTotal : UInt64 := 0
  dnsCnameUncloakedTotal : UInt64 := 0
  consentEnforcementBlockedTotal : UInt64 := 0
  consentEnforcementReportOnlyTotal : UInt64 := 0
  bodyRewriteTotal : UInt64 := 0
  bodyRewriteReportOnlyTotal : UInt64 := 0
  bodyRewriteSkippedTotal : UInt64 := 0
  bodyRewriteRemovedScriptTotal : UInt64 := 0
  bodyRewriteRemovedPixelTotal : UInt64 := 0
  bodyRewriteRemovedCosmeticTotal : UInt64 := 0
  bodyRewriteBytesSavedTotal : UInt64 := 0
  bodyRewriteRemovedScriptReportOnlyTotal : UInt64 := 0
  bodyRewriteRemovedPixelReportOnlyTotal : UInt64 := 0
  bodyRewriteRemovedCosmeticReportOnlyTotal : UInt64 := 0
  bodyRewriteBytesSavedReportOnlyTotal : UInt64 := 0
  websocketBlockedTotal : UInt64 := 0
  refererSpoofedTotal : UInt64 := 0
  certPinViolationTotal : UInt64 := 0
  queryParamsStrippedTotal : UInt64 := 0
  cacheHeadersStrippedTotal : UInt64 := 0
  lastSeenUnix : UInt64 := 0
  lastFlow : Option Str := none
  lastAction : Option Str := none
  lastReason : Option Str := none

namespace HostReceiptFields

/-! ## Writer and reader -/

def u64Json (value : UInt64) : Json := .number (.posInt value)

def stringJson : Option Str → Json
  | some text => .string text
  | none => .null

def asJson (receipt : HostReceiptFields) : Json :=
  .ofMembers
    [(ascii "seen_total", u64Json receipt.seenTotal),
      (ascii "routing_mitm_total", u64Json receipt.routingMitmTotal),
      (ascii "routing_passthrough_total", u64Json receipt.routingPassthroughTotal),
      (ascii "mitm_attempt_total", u64Json receipt.mitmAttemptTotal),
      (ascii "mitm_success_total", u64Json receipt.mitmSuccessTotal),
      (ascii "mitm_failure_total", u64Json receipt.mitmFailureTotal),
      (ascii "mitm_client_tls_reject_total", u64Json receipt.mitmClientTlsRejectTotal),
      (ascii "host_auto_pinned_total", u64Json receipt.hostAutoPinnedTotal),
      (ascii "policy_set_cookie_would_strip_total", u64Json receipt.policySetCookieWouldStripTotal),
      (ascii "policy_set_cookie_stripped_total", u64Json receipt.policySetCookieStrippedTotal),
      (ascii "policy_set_cookie_headers_total", u64Json receipt.policySetCookieHeadersTotal),
      (ascii "dns_blocked_total", u64Json receipt.dnsBlockedTotal),
      (ascii "dns_report_only_total", u64Json receipt.dnsReportOnlyTotal),
      (ascii "dns_cname_uncloaked_total", u64Json receipt.dnsCnameUncloakedTotal),
      (ascii "consent_enforcement_blocked_total", u64Json receipt.consentEnforcementBlockedTotal),
      (ascii "consent_enforcement_report_only_total",
        u64Json receipt.consentEnforcementReportOnlyTotal),
      (ascii "body_rewrite_total", u64Json receipt.bodyRewriteTotal),
      (ascii "body_rewrite_report_only_total", u64Json receipt.bodyRewriteReportOnlyTotal),
      (ascii "body_rewrite_skipped_total", u64Json receipt.bodyRewriteSkippedTotal),
      (ascii "body_rewrite_removed_script_total", u64Json receipt.bodyRewriteRemovedScriptTotal),
      (ascii "body_rewrite_removed_pixel_total", u64Json receipt.bodyRewriteRemovedPixelTotal),
      (ascii "body_rewrite_removed_cosmetic_total",
        u64Json receipt.bodyRewriteRemovedCosmeticTotal),
      (ascii "body_rewrite_bytes_saved_total", u64Json receipt.bodyRewriteBytesSavedTotal),
      (ascii "body_rewrite_removed_script_report_only_total",
        u64Json receipt.bodyRewriteRemovedScriptReportOnlyTotal),
      (ascii "body_rewrite_removed_pixel_report_only_total",
        u64Json receipt.bodyRewriteRemovedPixelReportOnlyTotal),
      (ascii "body_rewrite_removed_cosmetic_report_only_total",
        u64Json receipt.bodyRewriteRemovedCosmeticReportOnlyTotal),
      (ascii "body_rewrite_bytes_saved_report_only_total",
        u64Json receipt.bodyRewriteBytesSavedReportOnlyTotal),
      (ascii "websocket_blocked_total", u64Json receipt.websocketBlockedTotal),
      (ascii "referer_spoofed_total", u64Json receipt.refererSpoofedTotal),
      (ascii "cert_pin_violation_total", u64Json receipt.certPinViolationTotal),
      (ascii "query_params_stripped_total", u64Json receipt.queryParamsStrippedTotal),
      (ascii "cache_headers_stripped_total", u64Json receipt.cacheHeadersStrippedTotal),
      (ascii "last_seen_unix", u64Json receipt.lastSeenUnix),
      (ascii "last_flow", stringJson receipt.lastFlow),
      (ascii "last_action", stringJson receipt.lastAction),
      (ascii "last_reason", stringJson receipt.lastReason)]

def getU64 (value : Json) (key : Str) : UInt64 := ((value.get key).bind Json.asU64).getD 0

def getString (value : Json) (key : Str) : Option Str := (value.get key).bind Json.asStr

def fromJson (value : Json) : HostReceiptFields where
  seenTotal := getU64 value (ascii "seen_total")
  routingMitmTotal := getU64 value (ascii "routing_mitm_total")
  routingPassthroughTotal := getU64 value (ascii "routing_passthrough_total")
  mitmAttemptTotal := getU64 value (ascii "mitm_attempt_total")
  mitmSuccessTotal := getU64 value (ascii "mitm_success_total")
  mitmFailureTotal := getU64 value (ascii "mitm_failure_total")
  mitmClientTlsRejectTotal := getU64 value (ascii "mitm_client_tls_reject_total")
  hostAutoPinnedTotal := getU64 value (ascii "host_auto_pinned_total")
  policySetCookieWouldStripTotal := getU64 value (ascii "policy_set_cookie_would_strip_total")
  policySetCookieStrippedTotal := getU64 value (ascii "policy_set_cookie_stripped_total")
  policySetCookieHeadersTotal := getU64 value (ascii "policy_set_cookie_headers_total")
  dnsBlockedTotal := getU64 value (ascii "dns_blocked_total")
  dnsReportOnlyTotal := getU64 value (ascii "dns_report_only_total")
  dnsCnameUncloakedTotal := getU64 value (ascii "dns_cname_uncloaked_total")
  consentEnforcementBlockedTotal := getU64 value (ascii "consent_enforcement_blocked_total")
  consentEnforcementReportOnlyTotal := getU64 value (ascii "consent_enforcement_report_only_total")
  bodyRewriteTotal := getU64 value (ascii "body_rewrite_total")
  bodyRewriteReportOnlyTotal := getU64 value (ascii "body_rewrite_report_only_total")
  bodyRewriteSkippedTotal := getU64 value (ascii "body_rewrite_skipped_total")
  bodyRewriteRemovedScriptTotal := getU64 value (ascii "body_rewrite_removed_script_total")
  bodyRewriteRemovedPixelTotal := getU64 value (ascii "body_rewrite_removed_pixel_total")
  bodyRewriteRemovedCosmeticTotal := getU64 value (ascii "body_rewrite_removed_cosmetic_total")
  bodyRewriteBytesSavedTotal := getU64 value (ascii "body_rewrite_bytes_saved_total")
  bodyRewriteRemovedScriptReportOnlyTotal :=
    getU64 value (ascii "body_rewrite_removed_script_report_only_total")
  bodyRewriteRemovedPixelReportOnlyTotal :=
    getU64 value (ascii "body_rewrite_removed_pixel_report_only_total")
  bodyRewriteRemovedCosmeticReportOnlyTotal :=
    getU64 value (ascii "body_rewrite_removed_cosmetic_report_only_total")
  bodyRewriteBytesSavedReportOnlyTotal :=
    getU64 value (ascii "body_rewrite_bytes_saved_report_only_total")
  websocketBlockedTotal := getU64 value (ascii "websocket_blocked_total")
  refererSpoofedTotal := getU64 value (ascii "referer_spoofed_total")
  certPinViolationTotal := getU64 value (ascii "cert_pin_violation_total")
  queryParamsStrippedTotal := getU64 value (ascii "query_params_stripped_total")
  cacheHeadersStrippedTotal := getU64 value (ascii "cache_headers_stripped_total")
  lastSeenUnix := getU64 value (ascii "last_seen_unix")
  lastFlow := getString value (ascii "last_flow")
  lastAction := getString value (ascii "last_action")
  lastReason := getString value (ascii "last_reason")

/-! ## The table of a receipt -/

def counters (receipt : HostReceiptFields) : ReceiptCounter → UInt64
  | .seenTotal => receipt.seenTotal
  | .routingMitmTotal => receipt.routingMitmTotal
  | .routingPassthroughTotal => receipt.routingPassthroughTotal
  | .mitmAttemptTotal => receipt.mitmAttemptTotal
  | .mitmSuccessTotal => receipt.mitmSuccessTotal
  | .mitmFailureTotal => receipt.mitmFailureTotal
  | .mitmClientTlsRejectTotal => receipt.mitmClientTlsRejectTotal
  | .hostAutoPinnedTotal => receipt.hostAutoPinnedTotal
  | .policySetCookieWouldStripTotal => receipt.policySetCookieWouldStripTotal
  | .policySetCookieStrippedTotal => receipt.policySetCookieStrippedTotal
  | .policySetCookieHeadersTotal => receipt.policySetCookieHeadersTotal
  | .dnsBlockedTotal => receipt.dnsBlockedTotal
  | .dnsReportOnlyTotal => receipt.dnsReportOnlyTotal
  | .dnsCnameUncloakedTotal => receipt.dnsCnameUncloakedTotal
  | .consentEnforcementBlockedTotal => receipt.consentEnforcementBlockedTotal
  | .consentEnforcementReportOnlyTotal => receipt.consentEnforcementReportOnlyTotal
  | .bodyRewriteTotal => receipt.bodyRewriteTotal
  | .bodyRewriteReportOnlyTotal => receipt.bodyRewriteReportOnlyTotal
  | .bodyRewriteSkippedTotal => receipt.bodyRewriteSkippedTotal
  | .bodyRewriteRemovedScriptTotal => receipt.bodyRewriteRemovedScriptTotal
  | .bodyRewriteRemovedPixelTotal => receipt.bodyRewriteRemovedPixelTotal
  | .bodyRewriteRemovedCosmeticTotal => receipt.bodyRewriteRemovedCosmeticTotal
  | .bodyRewriteBytesSavedTotal => receipt.bodyRewriteBytesSavedTotal
  | .bodyRewriteRemovedScriptReportOnlyTotal => receipt.bodyRewriteRemovedScriptReportOnlyTotal
  | .bodyRewriteRemovedPixelReportOnlyTotal => receipt.bodyRewriteRemovedPixelReportOnlyTotal
  | .bodyRewriteRemovedCosmeticReportOnlyTotal => receipt.bodyRewriteRemovedCosmeticReportOnlyTotal
  | .bodyRewriteBytesSavedReportOnlyTotal => receipt.bodyRewriteBytesSavedReportOnlyTotal
  | .websocketBlockedTotal => receipt.websocketBlockedTotal
  | .refererSpoofedTotal => receipt.refererSpoofedTotal
  | .certPinViolationTotal => receipt.certPinViolationTotal
  | .queryParamsStrippedTotal => receipt.queryParamsStrippedTotal
  | .cacheHeadersStrippedTotal => receipt.cacheHeadersStrippedTotal
  | .lastSeenUnix => receipt.lastSeenUnix

def texts (receipt : HostReceiptFields) : ReceiptText → Option Str
  | .lastFlow => receipt.lastFlow
  | .lastAction => receipt.lastAction
  | .lastReason => receipt.lastReason

def table (receipt : HostReceiptFields) : HostReceipt where
  counters := receipt.counters
  texts := receipt.texts

def ofTable (table : HostReceipt) : HostReceiptFields where
  seenTotal := table.counters .seenTotal
  routingMitmTotal := table.counters .routingMitmTotal
  routingPassthroughTotal := table.counters .routingPassthroughTotal
  mitmAttemptTotal := table.counters .mitmAttemptTotal
  mitmSuccessTotal := table.counters .mitmSuccessTotal
  mitmFailureTotal := table.counters .mitmFailureTotal
  mitmClientTlsRejectTotal := table.counters .mitmClientTlsRejectTotal
  hostAutoPinnedTotal := table.counters .hostAutoPinnedTotal
  policySetCookieWouldStripTotal := table.counters .policySetCookieWouldStripTotal
  policySetCookieStrippedTotal := table.counters .policySetCookieStrippedTotal
  policySetCookieHeadersTotal := table.counters .policySetCookieHeadersTotal
  dnsBlockedTotal := table.counters .dnsBlockedTotal
  dnsReportOnlyTotal := table.counters .dnsReportOnlyTotal
  dnsCnameUncloakedTotal := table.counters .dnsCnameUncloakedTotal
  consentEnforcementBlockedTotal := table.counters .consentEnforcementBlockedTotal
  consentEnforcementReportOnlyTotal := table.counters .consentEnforcementReportOnlyTotal
  bodyRewriteTotal := table.counters .bodyRewriteTotal
  bodyRewriteReportOnlyTotal := table.counters .bodyRewriteReportOnlyTotal
  bodyRewriteSkippedTotal := table.counters .bodyRewriteSkippedTotal
  bodyRewriteRemovedScriptTotal := table.counters .bodyRewriteRemovedScriptTotal
  bodyRewriteRemovedPixelTotal := table.counters .bodyRewriteRemovedPixelTotal
  bodyRewriteRemovedCosmeticTotal := table.counters .bodyRewriteRemovedCosmeticTotal
  bodyRewriteBytesSavedTotal := table.counters .bodyRewriteBytesSavedTotal
  bodyRewriteRemovedScriptReportOnlyTotal := table.counters .bodyRewriteRemovedScriptReportOnlyTotal
  bodyRewriteRemovedPixelReportOnlyTotal := table.counters .bodyRewriteRemovedPixelReportOnlyTotal
  bodyRewriteRemovedCosmeticReportOnlyTotal :=
    table.counters .bodyRewriteRemovedCosmeticReportOnlyTotal
  bodyRewriteBytesSavedReportOnlyTotal := table.counters .bodyRewriteBytesSavedReportOnlyTotal
  websocketBlockedTotal := table.counters .websocketBlockedTotal
  refererSpoofedTotal := table.counters .refererSpoofedTotal
  certPinViolationTotal := table.counters .certPinViolationTotal
  queryParamsStrippedTotal := table.counters .queryParamsStrippedTotal
  cacheHeadersStrippedTotal := table.counters .cacheHeadersStrippedTotal
  lastSeenUnix := table.counters .lastSeenUnix
  lastFlow := table.texts .lastFlow
  lastAction := table.texts .lastAction
  lastReason := table.texts .lastReason

/-- All fields, in the order in which they are written. -/
def writtenFields : List ReceiptField :=
  [.counter .seenTotal, .counter .routingMitmTotal, .counter .routingPassthroughTotal,
    .counter .mitmAttemptTotal, .counter .mitmSuccessTotal, .counter .mitmFailureTotal,
    .counter .mitmClientTlsRejectTotal, .counter .hostAutoPinnedTotal,
    .counter .policySetCookieWouldStripTotal, .counter .policySetCookieStrippedTotal,
    .counter .policySetCookieHeadersTotal, .counter .dnsBlockedTotal, .counter .dnsReportOnlyTotal,
    .counter .dnsCnameUncloakedTotal, .counter .consentEnforcementBlockedTotal,
    .counter .consentEnforcementReportOnlyTotal, .counter .bodyRewriteTotal,
    .counter .bodyRewriteReportOnlyTotal, .counter .bodyRewriteSkippedTotal,
    .counter .bodyRewriteRemovedScriptTotal, .counter .bodyRewriteRemovedPixelTotal,
    .counter .bodyRewriteRemovedCosmeticTotal, .counter .bodyRewriteBytesSavedTotal,
    .counter .bodyRewriteRemovedScriptReportOnlyTotal,
    .counter .bodyRewriteRemovedPixelReportOnlyTotal,
    .counter .bodyRewriteRemovedCosmeticReportOnlyTotal,
    .counter .bodyRewriteBytesSavedReportOnlyTotal, .counter .websocketBlockedTotal,
    .counter .refererSpoofedTotal, .counter .certPinViolationTotal,
    .counter .queryParamsStrippedTotal, .counter .cacheHeadersStrippedTotal, .counter .lastSeenUnix,
    .text .lastFlow, .text .lastAction, .text .lastReason]

@[simp]
theorem ofTable_table (receipt : HostReceiptFields) : ofTable receipt.table = receipt := rfl

@[simp]
theorem table_ofTable (table : HostReceipt) : (ofTable table).table = table := by
  have counters : (ofTable table).counters = table.counters := by
    funext field
    cases field <;> rfl
  have texts : (ofTable table).texts = table.texts := by
    funext field
    cases field <;> rfl
  calc (ofTable table).table = ⟨(ofTable table).counters, (ofTable table).texts⟩ := rfl
    _ = table := by rw [counters, texts]

/-- The reader asks for each field under the key of its table entry. -/
theorem fromJson_eq (value : Json) : fromJson value = ofTable (HostReceipt.fromJson value) := rfl

theorem writtenFields_perm : writtenFields.Perm receiptFields := by
  decide +kernel

/-- The writer writes each field under the key of its table entry. -/
theorem asJson_eq (receipt : HostReceiptFields) : receipt.asJson = receipt.table.asJson := by
  have written : receipt.asJson = .ofMembers
      (writtenFields.map fun field => (field.key, receipt.table.value field)) := rfl
  have increasing := Json.pairwise_of_increasing receiptFields_increasing
  rw [written, HostReceipt.asJson]
  refine Json.ofMembers_eq_of_perm (writtenFields_perm.map _) ?_
  rw [List.pairwise_map] at increasing ⊢
  exact increasing

/-- The receipt with one field as it is in a new receipt. -/
def reset (receipt : HostReceiptFields) (field : ReceiptField) : HostReceiptFields :=
  ofTable (receipt.table.reset field)

/-- A receipt is read back field by field, and a key that is missing or holds a value of another
type loses its own field only. -/
theorem fromJson_asJson_fields (receipt : HostReceiptFields) :
    fromJson receipt.asJson = receipt ∧
    ∀ key, (receipt.asJson.get key).isSome → ∃ field : ReceiptField, field.key = key ∧
      fromJson (receipt.asJson.remove key) = receipt.reset field ∧
      ∀ value, field.IllTyped value →
        fromJson (receipt.asJson.replace key value) = receipt.reset field := by
  constructor
  · rw [fromJson_eq, asJson_eq, HostReceipt.fromJson_asJson, ofTable_table]
  · intro key held
    obtain ⟨value, held⟩ := Option.isSome_iff_exists.mp held
    rw [asJson_eq] at held
    obtain ⟨field, rfl⟩ := HostReceipt.field_of_get_asJson held
    refine ⟨field, rfl, ?_, fun value illTyped => ?_⟩
    · rw [fromJson_eq, asJson_eq, HostReceipt.fromJson_remove, reset]
    · rw [fromJson_eq, asJson_eq, HostReceipt.fromJson_replace _ illTyped, reset]

end HostReceiptFields
end PrivacyEngine
