import PrivacyEngine.Mitm.Effects
import PrivacyEngine.Wire.JsonText
import PrivacyEngine.Store.HostKeys
import PrivacyEngine.Store.Persist

/-!
# Receipts

What the engine did for each host, counted in memory and written to a file from time to time.  A
receipt has one counter or text per field of `HostReceipt`; keys of the file are normalized once
more when it is loaded.
-/

namespace PrivacyEngine

open Wire FileSystem

/-! ## One host -/

inductive ReceiptCounter where
  | seenTotal
  | routingMitmTotal
  | routingPassthroughTotal
  | mitmAttemptTotal
  | mitmSuccessTotal
  | mitmFailureTotal
  | mitmClientTlsRejectTotal
  | hostAutoPinnedTotal
  | policySetCookieWouldStripTotal
  | policySetCookieStrippedTotal
  | policySetCookieHeadersTotal
  | dnsBlockedTotal
  | dnsReportOnlyTotal
  | dnsCnameUncloakedTotal
  | consentEnforcementBlockedTotal
  | consentEnforcementReportOnlyTotal
  | bodyRewriteTotal
  | bodyRewriteReportOnlyTotal
  | bodyRewriteSkippedTotal
  | bodyRewriteRemovedScriptTotal
  | bodyRewriteRemovedPixelTotal
  | bodyRewriteRemovedCosmeticTotal
  | bodyRewriteBytesSavedTotal
  | bodyRewriteRemovedScriptReportOnlyTotal
  | bodyRewriteRemovedPixelReportOnlyTotal
  | bodyRewriteRemovedCosmeticReportOnlyTotal
  | bodyRewriteBytesSavedReportOnlyTotal
  | websocketBlockedTotal
  | refererSpoofedTotal
  | certPinViolationTotal
  | queryParamsStrippedTotal
  | cacheHeadersStrippedTotal
  | lastSeenUnix
  deriving DecidableEq

inductive ReceiptText where
  | lastFlow
  | lastAction
  | lastReason
  deriving DecidableEq

inductive ReceiptField where
  | counter (field : ReceiptCounter)
  | text (field : ReceiptText)
  deriving DecidableEq

def ReceiptCounter.key : ReceiptCounter → Str
  | seenTotal => ascii "seen_total"
  | routingMitmTotal => ascii "routing_mitm_total"
  | routingPassthroughTotal => ascii "routing_passthrough_total"
  | mitmAttemptTotal => ascii "mitm_attempt_total"
  | mitmSuccessTotal => ascii "mitm_success_total"
  | mitmFailureTotal => ascii "mitm_failure_total"
  | mitmClientTlsRejectTotal => ascii "mitm_client_tls_reject_total"
  | hostAutoPinnedTotal => ascii "host_auto_pinned_total"
  | policySetCookieWouldStripTotal => ascii "policy_set_cookie_would_strip_total"
  | policySetCookieStrippedTotal => ascii "policy_set_cookie_stripped_total"
  | policySetCookieHeadersTotal => ascii "policy_set_cookie_headers_total"
  | dnsBlockedTotal => ascii "dns_blocked_total"
  | dnsReportOnlyTotal => ascii "dns_report_only_total"
  | dnsCnameUncloakedTotal => ascii "dns_cname_uncloaked_total"
  | consentEnforcementBlockedTotal => ascii "consent_enforcement_blocked_total"
  | consentEnforcementReportOnlyTotal => ascii "consent_enforcement_report_only_total"
  | bodyRewriteTotal => ascii "body_rewrite_total"
  | bodyRewriteReportOnlyTotal => ascii "body_rewrite_report_only_total"
  | bodyRewriteSkippedTotal => ascii "body_rewrite_skipped_total"
  | bodyRewriteRemovedScriptTotal => ascii "body_rewrite_removed_script_total"
  | bodyRewriteRemovedPixelTotal => ascii "body_rewrite_removed_pixel_total"
  | bodyRewriteRemovedCosmeticTotal => ascii "body_rewrite_removed_cosmetic_total"
  | bodyRewriteBytesSavedTotal => ascii "body_rewrite_bytes_saved_total"
  | bodyRewriteRemovedScriptReportOnlyTotal => ascii "body_rewrite_removed_script_report_only_total"
  | bodyRewriteRemovedPixelReportOnlyTotal => ascii "body_rewrite_removed_pixel_report_only_total"
  | bodyRewriteRemovedCosmeticReportOnlyTotal =>
    ascii "body_rewrite_removed_cosmetic_report_only_total"
  | bodyRewriteBytesSavedReportOnlyTotal => ascii "body_rewrite_bytes_saved_report_only_total"
  | websocketBlockedTotal => ascii "websocket_blocked_total"
  | refererSpoofedTotal => ascii "referer_spoofed_total"
  | certPinViolationTotal => ascii "cert_pin_violation_total"
  | queryParamsStrippedTotal => ascii "query_params_stripped_total"
  | cacheHeadersStrippedTotal => ascii "cache_headers_stripped_total"
  | lastSeenUnix => ascii "last_seen_unix"

def ReceiptText.key : ReceiptText → Str
  | lastFlow => ascii "last_flow"
  | lastAction => ascii "last_action"
  | lastReason => ascii "last_reason"

def ReceiptField.key : ReceiptField → Str
  | .counter field => field.key
  | .text field => field.key

/-- All fields, in the order of their keys. -/
def receiptFields : List ReceiptField :=
  [.counter .bodyRewriteBytesSavedReportOnlyTotal, .counter .bodyRewriteBytesSavedTotal,
    .counter .bodyRewriteRemovedCosmeticReportOnlyTotal, .counter .bodyRewriteRemovedCosmeticTotal,
    .counter .bodyRewriteRemovedPixelReportOnlyTotal, .counter .bodyRewriteRemovedPixelTotal,
    .counter .bodyRewriteRemovedScriptReportOnlyTotal, .counter .bodyRewriteRemovedScriptTotal,
    .counter .bodyRewriteReportOnlyTotal, .counter .bodyRewriteSkippedTotal,
    .counter .bodyRewriteTotal, .counter .cacheHeadersStrippedTotal,
    .counter .certPinViolationTotal, .counter .consentEnforcementBlockedTotal,
    .counter .consentEnforcementReportOnlyTotal, .counter .dnsBlockedTotal,
    .counter .dnsCnameUncloakedTotal, .counter .dnsReportOnlyTotal, .counter .hostAutoPinnedTotal,
    .text .lastAction, .text .lastFlow, .text .lastReason, .counter .lastSeenUnix,
    .counter .mitmAttemptTotal, .counter .mitmClientTlsRejectTotal, .counter .mitmFailureTotal,
    .counter .mitmSuccessTotal, .counter .policySetCookieHeadersTotal,
    .counter .policySetCookieStrippedTotal, .counter .policySetCookieWouldStripTotal,
    .counter .queryParamsStrippedTotal, .counter .refererSpoofedTotal, .counter .routingMitmTotal,
    .counter .routingPassthroughTotal, .counter .seenTotal, .counter .websocketBlockedTotal]

structure HostReceipt where
  counters : ReceiptCounter → UInt64 := fun _ => 0
  texts : ReceiptText → Option Str := fun _ => none

namespace HostReceipt

def value (receipt : HostReceipt) : ReceiptField → Json
  | .counter field => .number (.posInt (receipt.counters field))
  | .text field =>
      match receipt.texts field with
      | some text => .string text
      | none => .null

def asJson (receipt : HostReceipt) : Json :=
  .object (receiptFields.map fun field => (field.key, receipt.value field))

def fromJson (value : Json) : HostReceipt where
  counters counter := ((value.get counter.key).bind Json.asU64).getD 0
  texts text := (value.get text.key).bind Json.asStr

/-- Add to a counter. -/
def add (receipt : HostReceipt) (counter : ReceiptCounter) (amount : UInt64) : HostReceipt :=
  { receipt with
    counters := Function.update receipt.counters counter
      (saturatingAdd (receipt.counters counter) amount) }

def setLastSeen (receipt : HostReceipt) (now : UInt64) : HostReceipt :=
  { receipt with counters := Function.update receipt.counters .lastSeenUnix now }

def setText (receipt : HostReceipt) (text : ReceiptText) (value : Str) : HostReceipt :=
  { receipt with texts := Function.update receipt.texts text (some value) }

def touch (receipt : HostReceipt) (flow action reason : Str) (now : UInt64) : HostReceipt :=
  let seen := ((((receipt.add .seenTotal 1).setLastSeen now).setText .lastFlow flow).setText
    .lastAction action).setText .lastReason reason
  if action = ascii "mitm" then seen.add .routingMitmTotal 1
  else if action = ascii "passthrough" then seen.add .routingPassthroughTotal 1
  else seen

end HostReceipt

/-! ## Recording -/

/-- `u64::try_from` of a `usize`. -/
def u64TryFrom (count : Nat) : UInt64 :=
  if count < UInt64.size then UInt64.ofNat count else UInt64.ofNat (UInt64.size - 1)

/-- The calls that record something for a host. -/
inductive Record where
  | tlsRoutingDecision (flow action reason : Str)
  | mitmAttempt
  | mitmSuccess
  | mitmFailure
  | clientTlsReject
  | hostAutoPinned
  | policySetCookie (mode : PolicyMode) (setCookieCount : Nat)
  | dnsBlock
  | dnsReportOnly
  | dnsCnameUncloaked
  | consentEnforcement (mode : PolicyMode) (setCookieCount : Nat)
  | bodyRewrite (mode : PolicyMode) (details : BodyRewriteDetails)
  | bodyRewriteSkipped
  | websocketBlocked
  | refererSpoofed
  | certPinViolation
  | queryParamsStripped
  | cacheHeadersStripped

/-- What a call does to the receipt of its host. -/
def Record.update (receipt : HostReceipt) (now : UInt64) : Record → HostReceipt
  | tlsRoutingDecision flow action reason => receipt.touch flow action reason now
  | mitmAttempt => receipt.add .mitmAttemptTotal 1
  | mitmSuccess => receipt.add .mitmSuccessTotal 1
  | mitmFailure => receipt.add .mitmFailureTotal 1
  | clientTlsReject => receipt.add .mitmClientTlsRejectTotal 1
  | hostAutoPinned => receipt.add .hostAutoPinnedTotal 1
  | policySetCookie mode count =>
      let counted := receipt.add .policySetCookieHeadersTotal (u64TryFrom count)
      match mode with
      | .enforce => counted.add .policySetCookieStrippedTotal 1
      | .reportOnly => counted.add .policySetCookieWouldStripTotal 1
      | .disabled => counted
  | dnsBlock => receipt.add .dnsBlockedTotal 1
  | dnsReportOnly => receipt.add .dnsReportOnlyTotal 1
  | dnsCnameUncloaked => receipt.add .dnsCnameUncloakedTotal 1
  | consentEnforcement mode count =>
      let counted := receipt.add .policySetCookieHeadersTotal (u64TryFrom count)
      match mode with
      | .enforce =>
          (counted.add .consentEnforcementBlockedTotal 1).add .policySetCookieStrippedTotal 1
      | .reportOnly =>
          (counted.add .consentEnforcementReportOnlyTotal 1).add .policySetCookieWouldStripTotal 1
      | .disabled => counted
  | bodyRewrite mode details =>
      match mode with
      | .enforce =>
          ((((receipt.add .bodyRewriteTotal 1).add .bodyRewriteRemovedScriptTotal
            (u64TryFrom details.removedScripts)).add .bodyRewriteRemovedPixelTotal
            (u64TryFrom details.removedPixels)).add .bodyRewriteRemovedCosmeticTotal
            (u64TryFrom details.removedCosmetic)).add .bodyRewriteBytesSavedTotal
            (u64TryFrom details.bytesSaved)
      | .reportOnly =>
          ((((receipt.add .bodyRewriteReportOnlyTotal 1).add
            .bodyRewriteRemovedScriptReportOnlyTotal (u64TryFrom details.removedScripts)).add
            .bodyRewriteRemovedPixelReportOnlyTotal (u64TryFrom details.removedPixels)).add
            .bodyRewriteRemovedCosmeticReportOnlyTotal (u64TryFrom details.removedCosmetic)).add
            .bodyRewriteBytesSavedReportOnlyTotal (u64TryFrom details.bytesSaved)
      | .disabled => receipt
  | bodyRewriteSkipped => receipt.add .bodyRewriteSkippedTotal 1
  | websocketBlocked => receipt.add .websocketBlockedTotal 1
  | refererSpoofed => receipt.add .refererSpoofedTotal 1
  | certPinViolation => receipt.add .certPinViolationTotal 1
  | queryParamsStripped => receipt.add .queryParamsStrippedTotal 1
  | cacheHeadersStripped => receipt.add .cacheHeadersStrippedTotal 1

/-- Receipts by normalized host. -/
abbrev Receipts := StrMap HostReceipt

structure ReceiptStore where
  hosts : Receipts
  dirty : Bool

namespace ReceiptStore

/-- Every call finds or creates the receipt of its host, updates it and marks the store. -/
def record (store : ReceiptStore) (host : Str) (entry : Record) (now : UInt64) : ReceiptStore :=
  let normalized := normalizeHost host
  if normalized = [] then store
  else
    let receipt := (store.hosts[normalized]?).getD {}
    { hosts := store.hosts.insert normalized ((entry.update receipt now).setLastSeen now)
      dirty := true }

/-- Drop hosts that were last seen more than the given time ago. -/
def pruneStaleHosts (hosts : Receipts) (maxAgeSecs now : UInt64) : Receipts :=
  hosts.filter fun _ receipt =>
    decide (receipt.counters .lastSeenUnix ≥ saturatingSub now maxAgeSecs)

end ReceiptStore

/-! ## The file -/

section Files

variable (serde : Serde)

def hostsJson (hosts : Receipts) : Json :=
  .object (hosts.toList.map fun (host, receipt) => (host, receipt.asJson))

def receiptsRoot (hosts : Receipts) (generatedUnix : UInt64) : Json :=
  .object
    [(ascii "generated_unix", .number (.posInt generatedUnix)), (ascii "hosts", hostsJson hosts),
      (ascii "version", .number (.posInt 1))]

def persistReceipts (path : FilePath) (json : Json) (outcomes : Outcomes BufferedWrite)
    (disk : Disk) : Except IoError Unit × Disk :=
  replaceFile path outcomes.createDirAll
    (outcomes.write.step (serde.toStringPretty json) (ascii "failed to serialize receipts: "))
    outcomes.renames disk

def insertReceipt (hosts : Receipts) (member : Str × Json) : Receipts :=
  let normalized := normalizeHost member.1
  if normalized = [] then hosts else hosts.insert normalized (HostReceipt.fromJson member.2)

def parseReceipts (raw : Str) : Except IoError Receipts := do
  let parsed ← (serde.fromStr raw).mapError fun error =>
    invalidData (ascii "invalid receipts JSON: " ++ error)
  let root :=
    match parsed.get (ascii "hosts") with
    | some hosts => hosts.asObject
    | none => parsed.asObject
  match root with
  | some members => return members.foldl insertReceipt ∅
  | none => .error (invalidData (ascii "invalid receipts root object"))

def loadReceipts (path : FilePath) (disk : Disk) : Except IoError Receipts :=
  if (disk path).isNone then .ok ∅
  else do
    let raw ← readDisk disk path
    parseReceipts serde raw

end Files

/-! ## Reading back a receipt -/

theorem receiptFields_increasing :
    Json.increasing (receiptFields.map ReceiptField.key) = true := by
  decide +kernel

theorem mem_receiptFields (field : ReceiptField) : field ∈ receiptFields := by
  cases field with
  | counter field => cases field <;> decide
  | text field => cases field <;> decide

theorem lookup_fields (value : ReceiptField → Json) (field : ReceiptField) :
    (receiptFields.map fun field => (field.key, value field)).lookup field.key =
      some (value field) := by
  have mem := mem_receiptFields field
  have sorted := Json.pairwise_of_increasing receiptFields_increasing
  generalize receiptFields = fields at mem sorted
  induction fields with
  | nil => cases mem
  | cons first fields ih =>
      rw [List.map_cons, List.pairwise_cons] at sorted
      rcases List.mem_cons.mp mem with rfl | mem
      · simp
      · have below := sorted.1 field.key (List.mem_map_of_mem mem)
        have other : (field.key == first.key) = false := by
          refine beq_eq_false_iff_ne.mpr fun same => ?_
          have equal : compare first.key field.key = .eq := by
            rw [same]
            exact Std.ReflCmp.compare_self
          rw [equal] at below
          cases below
        rw [List.map_cons, List.lookup_cons, other]
        exact ih mem sorted.2

theorem HostReceipt.get_asJson (receipt : HostReceipt) (field : ReceiptField) :
    receipt.asJson.get field.key = some (receipt.value field) :=
  lookup_fields receipt.value field

theorem HostReceipt.fromJson_asJson (receipt : HostReceipt) :
    fromJson receipt.asJson = receipt := by
  have counters : (fromJson receipt.asJson).counters = receipt.counters := by
    funext field
    have held := receipt.get_asJson (.counter field)
    simp only [ReceiptField.key] at held
    simp [fromJson, held, value, Json.asU64]
  have texts : (fromJson receipt.asJson).texts = receipt.texts := by
    funext field
    have held := receipt.get_asJson (.text field)
    simp only [ReceiptField.key] at held
    cases text : receipt.texts field with
    | none => simp [fromJson, held, value, text, Json.asStr]
    | some text => simp [fromJson, held, value, text, Json.asStr]
  calc fromJson receipt.asJson
      = ⟨(fromJson receipt.asJson).counters, (fromJson receipt.asJson).texts⟩ := rfl
    _ = receipt := by rw [counters, texts]

theorem HostReceipt.canonical_asJson (receipt : HostReceipt) :
    receipt.asJson.Canonical 125 := by
  refine .object_of_keys ?_ fun member mem => ?_
  · rw [List.map_map]
    exact receiptFields_increasing
  · obtain ⟨field, -, rfl⟩ := List.mem_map.mp mem
    cases field with
    | counter field => exact .posInt _
    | text field =>
        cases held : receipt.texts field with
        | none => simpa [value, held] using Json.Canonical.null
        | some text => simpa [value, held] using Json.Canonical.string text

theorem canonical_hostsJson (hosts : Receipts) : (hostsJson hosts).Canonical 126 := by
  refine .object (List.pairwise_map.mpr Std.ExtTreeMap.ordered_keys_toList) fun member mem => ?_
  obtain ⟨entry, -, rfl⟩ := List.mem_map.mp mem
  exact entry.2.canonical_asJson

theorem canonical_receiptsRoot (hosts : Receipts) (generatedUnix : UInt64) :
    (receiptsRoot hosts generatedUnix).Canonical 127 := by
  have sorted :
      Json.increasing [ascii "generated_unix", ascii "hosts", ascii "version"] = true := by
    decide +kernel
  refine .object_of_keys sorted ?_
  simp only [List.mem_cons, List.not_mem_nil, or_false]
  rintro member (rfl | rfl | rfl)
  · exact .posInt generatedUnix
  · exact canonical_hostsJson hosts
  · exact .posInt 1

/-! ## Reading back the file -/

/-- What the receipts of a file are read as. -/
def reloadedReceipts (hosts : Receipts) : Receipts :=
  hosts.toList.foldl (fun filled entry =>
    if normalizeHost entry.1 = [] then filled else filled.insert (normalizeHost entry.1) entry.2) ∅

variable {serde : Serde}

theorem loadReceipts_of_text {path : FilePath} {disk : Disk} {hosts : Receipts}
    {generatedUnix : UInt64}
    (holds : disk path = some (serde.toStringPretty (receiptsRoot hosts generatedUnix))) :
    loadReceipts serde path disk = .ok (reloadedReceipts hosts) := by
  have parses := serde.fromStr_toStringPretty _ (canonical_receiptsRoot hosts generatedUnix)
  have root : (receiptsRoot hosts generatedUnix).get (ascii "hosts") = some (hostsJson hosts) := rfl
  have filled : (hosts.toList.map fun (host, receipt) => (host, receipt.asJson)).foldl
      insertReceipt ∅ = reloadedReceipts hosts := by
    rw [List.foldl_map]
    simp only [insertReceipt, HostReceipt.fromJson_asJson]
    rfl
  simp [loadReceipts, holds, readDisk_pretty holds, parseReceipts, parses, Except.mapError, root,
    hostsJson, Json.asObject, filled, bind, Except.bind, pure, Except.pure]

/-- A key that is read comes from a key that was written. -/
theorem exists_of_mem_reloadedReceipts {hosts : Receipts} {key : Str}
    (mem : key ∈ reloadedReceipts hosts) : ∃ raw ∈ hosts, normalizeHost raw = key := by
  suffices listed : ∀ (entries : List (Str × HostReceipt)) (filled : Receipts),
      key ∈ entries.foldl (fun filled entry => if normalizeHost entry.1 = [] then filled
        else filled.insert (normalizeHost entry.1) entry.2) filled →
      key ∈ filled ∨ ∃ entry ∈ entries, normalizeHost entry.1 = key by
    rcases listed hosts.toList ∅ mem with absent | ⟨⟨raw, receipt⟩, mem, normalized⟩
    · exact absurd absent (by simp)
    · have held := Std.ExtTreeMap.mem_toList_iff_getElem?_eq_some.mp mem
      exact ⟨raw, Std.ExtTreeMap.mem_iff_isSome_getElem?.mpr (by simp [held]), normalized⟩
  intro entries
  induction entries with
  | nil => exact fun filled mem => .inl mem
  | cons entry entries ih =>
      intro filled mem
      rw [List.foldl_cons] at mem
      rcases ih _ mem with before | ⟨later, listed, normalized⟩
      · split at before
        · exact .inl before
        · rcases Std.ExtTreeMap.mem_insert.mp before with same | before
          · exact .inr ⟨entry, by simp, Std.LawfulEqCmp.compare_eq_iff_eq.mp same⟩
          · exact .inl before
      · exact .inr ⟨later, List.mem_cons_of_mem _ listed, normalized⟩

/-- Receipts are read back unchanged exactly if their hosts are normalized. -/
theorem reloadedReceipts_eq_iff {hosts : Receipts} (filled : ∀ host ∈ hosts, host ≠ []) :
    reloadedReceipts hosts = hosts ↔ ∀ host ∈ hosts, normalizeHost host = host := by
  constructor
  · intro same host mem
    refine normalizeHost_eq_of_preimages hosts.keys ?_ host (by simpa using mem)
    intro host mem
    have back : host ∈ reloadedReceipts hosts := by
      rw [same]
      simpa using mem
    obtain ⟨raw, raw_mem, normalized⟩ := exists_of_mem_reloadedReceipts back
    exact ⟨raw, by simpa using raw_mem, normalized⟩
  · intro fixed
    calc reloadedReceipts hosts
        = hosts.toList.foldl (fun filled entry => filled.insert entry.1 entry.2) ∅ := by
          refine List.foldl_ext _ _ _ fun loaded entry mem => ?_
          have held := Std.ExtTreeMap.mem_toList_iff_getElem?_eq_some.mp mem
          have listed : entry.1 ∈ hosts :=
            Std.ExtTreeMap.mem_iff_isSome_getElem?.mpr (by simp [held])
          rw [fixed entry.1 listed, if_neg (filled entry.1 listed)]
      _ = hosts := hosts.foldl_insert_toList

/-! ## Restarts -/

structure RecordCall where
  host : Str
  entry : Record
  now : UInt64

namespace ReceiptStore

def recordAll (store : ReceiptStore) (calls : List RecordCall) : ReceiptStore :=
  calls.foldl (fun store call => store.record call.host call.entry call.now) store

def empty : ReceiptStore := ⟨∅, false⟩

theorem mem_record {store : ReceiptStore} {host key : Str} {entry : Record} {now : UInt64} :
    key ∈ (store.record host entry now).hosts ↔
      key ∈ store.hosts ∨ key ≠ [] ∧ normalizeHost host = key := by
  unfold record
  by_cases skipped : normalizeHost host = []
  · simp only [skipped, if_true]
    refine ⟨.inl, fun mem => mem.elim id fun ⟨filled, same⟩ => absurd same.symm filled⟩
  · simp only [skipped, if_false, Std.ExtTreeMap.mem_insert, Std.LawfulEqCmp.compare_eq_iff_eq]
    constructor
    · rintro (rfl | mem)
      · exact .inr ⟨skipped, rfl⟩
      · exact .inl mem
    · rintro (mem | ⟨-, same⟩)
      · exact .inr mem
      · exact .inl same

/-- The keys of a store are the normalized hosts of its calls. -/
theorem mem_recordAll {calls : List RecordCall} {store : ReceiptStore} {key : Str} :
    key ∈ (store.recordAll calls).hosts ↔
      key ∈ store.hosts ∨ key ≠ [] ∧ ∃ call ∈ calls, normalizeHost call.host = key := by
  induction calls generalizing store with
  | nil => simp [recordAll]
  | cons call calls ih =>
      have cut : store.recordAll (call :: calls) =
          (store.record call.host call.entry call.now).recordAll calls := rfl
      rw [cut, ih, mem_record]
      simp only [List.mem_cons, exists_eq_or_imp]
      tauto

end ReceiptStore

/-- The outcomes under which the whole text is installed. -/
structure Outcomes.InstallWhole (outcomes : Outcomes BufferedWrite) (path : FilePath) : Prop where
  created : path.parent.isSome = true → outcomes.createDirAll = .ok ()
  flushed : outcomes.write = .dropped 0
  installed : outcomes.renames.Installs occupied path.InPlace

theorem persistReceipts_of_whole (serde : Serde) {path : FilePath}
    {outcomes : Outcomes BufferedWrite}
    (whole : outcomes.InstallWhole path) (json : Json) (disk : Disk) :
    ∃ after, persistReceipts serde path json outcomes disk = (.ok (), after) ∧
      after path = some (serde.toStringPretty json) := by
  have finished : outcomes.write.step (serde.toStringPretty json)
      (ascii "failed to serialize receipts: ") = .finished (serde.toStringPretty json) := by
    rw [whole.flushed]
    simp [BufferedWrite.step]
  have created : (if path.parent.isSome then outcomes.createDirAll else .ok ()) = .ok () := by
    split
    · exact whole.created ‹_›
    · rfl
  unfold persistReceipts replaceFile
  rw [finished, created]
  obtain ⟨-, left, after, written, holds, ends⟩ | ⟨fails, -⟩ :=
    replaceVia_cases occupied missing (path.withExtension (ascii "tmp")) path (.ok ())
      (.finished (serde.toStringPretty json)) outcomes.renames disk
  · cases written
    exact ⟨after, ends, holds⟩
  · exact absurd ⟨rfl, ⟨_, rfl⟩, whole.installed⟩ fails

/-- The receipts of a run survive a restart exactly if normalizing its hosts once more changes
nothing. -/
theorem receipts_survive_restart_iff (serde : Serde) (path : FilePath) (calls : List RecordCall)
    (generatedUnix : UInt64) {outcomes : Outcomes BufferedWrite}
    (whole : outcomes.InstallWhole path) (disk : Disk) :
    loadReceipts serde path
        (persistReceipts serde path
          (receiptsRoot (ReceiptStore.empty.recordAll calls).hosts generatedUnix) outcomes disk).2 =
        .ok (ReceiptStore.empty.recordAll calls).hosts ↔
      ∀ call ∈ calls, normalizeHost (normalizeHost call.host) = normalizeHost call.host := by
  have keys : ∀ key, key ∈ (ReceiptStore.empty.recordAll calls).hosts ↔
      key ≠ [] ∧ ∃ call ∈ calls, normalizeHost call.host = key := by
    intro key
    rw [ReceiptStore.mem_recordAll]
    exact or_iff_right Std.ExtTreeMap.not_mem_empty
  obtain ⟨after, ends, holds⟩ := persistReceipts_of_whole serde whole
    (receiptsRoot (ReceiptStore.empty.recordAll calls).hosts generatedUnix) disk
  rw [ends, loadReceipts_of_text holds, Except.ok.injEq,
    reloadedReceipts_eq_iff fun host mem => ((keys host).mp mem).1]
  constructor
  · intro fixed call mem
    by_cases skipped : normalizeHost call.host = []
    · rw [skipped]
      rfl
    · exact fixed _ ((keys _).mpr ⟨skipped, call, mem, rfl⟩)
  · intro fixed host mem
    obtain ⟨-, call, listed, rfl⟩ := (keys host).mp mem
    exact fixed call listed

/-! ### A blank in front of the last dot -/

def sampleReceiptPath : FilePath := .join [ascii "state"] (ascii "receipts.json")

def Outcomes.whole : Outcomes BufferedWrite := ⟨.ok (), .dropped 0, ⟨.ok (), .ok (), .ok ()⟩⟩

theorem Outcomes.installWhole_whole (path : FilePath) : Outcomes.whole.InstallWhole path :=
  ⟨fun _ => rfl, rfl, .inl rfl⟩

def sampleRecords : List RecordCall := [⟨ascii "B.", .mitmAttempt, 10⟩]

def sampleReceipts : Receipts := (ReceiptStore.empty.recordAll sampleRecords).hosts

def sampleReceiptSerde : Serde :=
  JsonTexts.serde <|
    .ofValues [receiptsRoot sampleReceipts 12]
      (fun value mem => by
        rw [List.mem_singleton.mp mem]
        exact canonical_receiptsRoot sampleReceipts 12)
      (by decide +kernel) (by decide +kernel) (by simp)

theorem sampleReceipts_survive :
    loadReceipts sampleReceiptSerde sampleReceiptPath
        (persistReceipts sampleReceiptSerde sampleReceiptPath (receiptsRoot sampleReceipts 12)
          .whole fun _ => none).2 =
      .ok sampleReceipts :=
  (receipts_survive_restart_iff sampleReceiptSerde sampleReceiptPath sampleRecords 12
    (Outcomes.installWhole_whole sampleReceiptPath) fun _ => none).mpr (by decide +kernel)

/-- The first host ends in a blank when it is normalized once, and in nothing the second time. -/
def sampleBlanks : List RecordCall :=
  [⟨ascii "a. .", .mitmAttempt, 10⟩, ⟨ascii "a", .dnsBlock, 11⟩]

def sampleBlankReceipts : Receipts := (ReceiptStore.empty.recordAll sampleBlanks).hosts

/-- Two hosts are recorded, and the restart finds one of them with the receipt of the other. -/
theorem sampleBlanks_merge :
    ∃ loaded, loadReceipts sampleReceiptSerde sampleReceiptPath
        (persistReceipts sampleReceiptSerde sampleReceiptPath
          (receiptsRoot sampleBlankReceipts 12) .whole fun _ => none).2 = .ok loaded ∧
      sampleBlankReceipts.keys = [ascii "a", ascii "a. "] ∧ loaded.keys = [ascii "a"] ∧
      (loaded[ascii "a"]?).map (fun receipt => receipt.counters .dnsBlockedTotal) = some 0 := by
  obtain ⟨after, ends, holds⟩ := persistReceipts_of_whole sampleReceiptSerde
    (Outcomes.installWhole_whole sampleReceiptPath) (receiptsRoot sampleBlankReceipts 12)
    fun _ => none
  refine ⟨reloadedReceipts sampleBlankReceipts, ?_, ?_, ?_, ?_⟩
  · rw [ends, loadReceipts_of_text holds]
  · decide +kernel
  · decide +kernel
  · decide +kernel

end PrivacyEngine
