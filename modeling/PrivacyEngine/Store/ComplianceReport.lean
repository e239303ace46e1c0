import PrivacyEngine.Store.ReceiptCodec
import PrivacyEngine.Wire.Html

/-!
# The compliance report

The HTML report on a receipts file.  Hosts and reasons in the file come from whatever clients have
asked for; they get into the page through `escapeHtml` only, so its markup is the same whatever they
are.
-/

namespace PrivacyEngine

open Wire FileSystem Html

/-! ## The file -/

structure ReceiptsReportData where
  version : Option UInt64
  generatedUnix : Option UInt64
  hosts : List (Str × HostReceiptFields)

/-- Lossy text of a path. -/
def display (path : Bytes) : Str := Utf8.lossy path

/-- A member of the hosts, if it has a name. -/
def reportedHost (member : Str × Json) : Option (Str × HostReceiptFields) :=
  let normalized := normalizeHost member.1
  if normalized = [] then none else some (normalized, .fromJson member.2)

def loadReceiptsForReporting (serde : Serde) (disk : Files Bytes Bytes) (path : Bytes) :
    Except IoError ReceiptsReportData :=
  match disk path with
  | none =>
      .error ⟨.notFound, ascii "receipts file not found: '" ++ display path ++ ascii "'"⟩
  | some content => do
      let raw ← readToString content
      let parsed ← (serde.fromStr raw).mapError fun error =>
        invalidData (ascii "invalid receipts JSON: " ++ error)
      let hostsObj :=
        match parsed.get (ascii "hosts") with
        | some hosts => hosts.asObject
        | none => parsed.asObject
      match hostsObj with
      | some members =>
          return {
            version := (parsed.get (ascii "version")).bind Json.asU64
            generatedUnix := (parsed.get (ascii "generated_unix")).bind Json.asU64
            hosts := members.filterMap reportedHost }
      | none => .error (invalidData (ascii "invalid receipts root object"))

/-! ## Totals -/

/-- `u64::saturating_mul`. -/
def saturatingMul (m n : UInt64) : UInt64 :=
  if m.toNat * n.toNat < UInt64.size then m * n else UInt64.ofNat (UInt64.size - 1)

def percentU64 (numer denom : UInt64) : Option UInt64 :=
  if denom = 0 then none else some (min (saturatingMul numer 100 / denom) 100)

def fmtPercent (numer denom : UInt64) : Str :=
  match percentU64 numer denom with
  | some p => decimal p.toNat ++ ascii "%"
  | none => ascii "-"

structure ComplianceTotals where
  hosts : UInt64 := 0
  seenTotal : UInt64 := 0
  routingMitmTotal : UInt64 := 0
  routingPassthroughTotal : UInt64 := 0
  mitmAttemptTotal : UInt64 := 0
  mitmSuccessTotal : UInt64 := 0
  mitmFailureTotal : UInt64 := 0
  mitmClientTlsRejectTotal : UInt64 := 0
  hostAutoPinnedTotal : UInt64 := 0
  cookieStrippedEventsTotal : UInt64 := 0
  cookieReportOnlyEventsTotal : UInt64 := 0
  setCookieHeadersTotal : UInt64 := 0
  dnsBlockedTotal : UInt64 := 0
  dnsReportOnlyTotal : UInt64 := 0
  dnsCnameUncloakedTotal : UInt64 := 0
  consentBlockedTotal : UInt64 := 0
  consentReportOnlyTotal : UInt64 := 0
  bodyRewriteEnforceTotal : UInt64 := 0
  bodyRewriteReportOnlyTotal : UInt64 := 0
  bodyRewriteSkippedTotal : UInt64 := 0
  bodyRewriteRemovedScriptTotal : UInt64 := 0
  bodyRewriteRemovedPixelTotal : UInt64 := 0
  bodyRewriteRemovedCosmeticTotal : UInt64 := 0
  bodyRewriteBytesSavedTotal : UInt64 := 0
  bodyRewriteRemovedScriptReportOnlyTotal : UInt64 := 0
  bodyRewriteRemovedPixelReportOnlyTotal : UInt64 := 0
  bodyRewriteRemovedCosmeticReportOnlyTotal : UInt64 := 0
  bodyRewriteBytesSavedReportOnlyTotal : UInt64 := 0

/-- Add what is counted for a host. -/
def ComplianceTotals.add (totals : ComplianceTotals) (r : HostReceiptFields) :
    ComplianceTotals where
  hosts := saturatingAdd totals.hosts 1
  seenTotal := saturatingAdd totals.seenTotal r.seenTotal
  routingMitmTotal := saturatingAdd totals.routingMitmTotal r.routingMitmTotal
  routingPassthroughTotal := saturatingAdd totals.routingPassthroughTotal r.routingPassthroughTotal
  mitmAttemptTotal := saturatingAdd totals.mitmAttemptTotal r.mitmAttemptTotal
  mitmSuccessTotal := saturatingAdd totals.mitmSuccessTotal r.mitmSuccessTotal
  mitmFailureTotal := saturatingAdd totals.mitmFailureTotal r.mitmFailureTotal
  mitmClientTlsRejectTotal :=
    saturatingAdd totals.mitmClientTlsRejectTotal r.mitmClientTlsRejectTotal
  hostAutoPinnedTotal := saturatingAdd totals.hostAutoPinnedTotal r.hostAutoPinnedTotal
  cookieStrippedEventsTotal :=
    saturatingAdd totals.cookieStrippedEventsTotal r.policySetCookieStrippedTotal
  cookieReportOnlyEventsTotal :=
    saturatingAdd totals.cookieReportOnlyEventsTotal r.policySetCookieWouldStripTotal
  setCookieHeadersTotal := saturatingAdd totals.setCookieHeadersTotal r.policySetCookieHeadersTotal
  dnsBlockedTotal := saturatingAdd totals.dnsBlockedTotal r.dnsBlockedTotal
  dnsReportOnlyTotal := saturatingAdd totals.dnsReportOnlyTotal r.dnsReportOnlyTotal
  dnsCnameUncloakedTotal := saturatingAdd totals.dnsCnameUncloakedTotal r.dnsCnameUncloakedTotal
  consentBlockedTotal := saturatingAdd totals.consentBlockedTotal r.consentEnforcementBlockedTotal
  consentReportOnlyTotal :=
    saturatingAdd totals.consentReportOnlyTotal r.consentEnforcementReportOnlyTotal
  bodyRewriteEnforceTotal := saturatingAdd totals.bodyRewriteEnforceTotal r.bodyRewriteTotal
  bodyRewriteReportOnlyTotal :=
    saturatingAdd totals.bodyRewriteReportOnlyTotal r.bodyRewriteReportOnlyTotal
  bodyRewriteSkippedTotal := saturatingAdd totals.bodyRewriteSkippedTotal r.bodyRewriteSkippedTotal
  bodyRewriteRemovedScriptTotal :=
    saturatingAdd totals.bodyRewriteRemovedScriptTotal r.bodyRewriteRemovedScriptTotal
  bodyRewriteRemovedPixelTotal :=
    saturatingAdd totals.bodyRewriteRemovedPixelTotal r.bodyRewriteRemovedPixelTotal
  bodyRewriteRemovedCosmeticTotal :=
    saturatingAdd totals.bodyRewriteRemovedCosmeticTotal r.bodyRewriteRemovedCosmeticTotal
  bodyRewriteBytesSavedTotal :=
    saturatingAdd totals.bodyRewriteBytesSavedTotal r.bodyRewriteBytesSavedTotal
  bodyRewriteRemovedScriptReportOnlyTotal :=
    saturatingAdd totals.bodyRewriteRemovedScriptReportOnlyTotal
      r.bodyRewriteRemovedScriptReportOnlyTotal
  bodyRewriteRemovedPixelReportOnlyTotal :=
    saturatingAdd totals.bodyRewriteRemovedPixelReportOnlyTotal
      r.bodyRewriteRemovedPixelReportOnlyTotal
  bodyRewriteRemovedCosmeticReportOnlyTotal :=
    saturatingAdd totals.bodyRewriteRemovedCosmeticReportOnlyTotal
      r.bodyRewriteRemovedCosmeticReportOnlyTotal
  bodyRewriteBytesSavedReportOnlyTotal :=
    saturatingAdd totals.bodyRewriteBytesSavedReportOnlyTotal r.bodyRewriteBytesSavedReportOnlyTotal

/-! ## Parts of the page -/

def pageOpen : Str :=
  ascii "<!doctype html><html><head><meta charset=\"utf-8\">" ++
    ascii "<meta name=\"viewport\" content=\"width=device-width, initial-scale=1\">" ++
    ascii "<title>Privacy Compliance Report</title>" ++
    ascii "<style>" ++
    ascii "body\x7bfont-family:ui-sans-serif,system-ui,-apple-system,Segoe UI,Roboto,Arial," ++
    ascii "sans-serif;line-height:1.35;margin:24px;color:#111;background:#fafafa;\x7d" ++
    ascii "h1,h2\x7bmargin:0 0 12px 0;\x7dh2\x7bmargin-top:24px;font-size:18px;\x7d" ++
    ascii ".meta\x7bcolor:#444;margin-bottom:16px\x7d.card\x7bbackground:#fff;" ++
    ascii "border:1px solid #e5e5e5;border-radius:10px;padding:14px 16px;margin:10px 0;\x7d" ++
    ascii "table\x7bwidth:100%;border-collapse:collapse;background:#fff;" ++
    ascii "border:1px solid #e5e5e5;border-radius:10px;overflow:hidden;\x7d" ++
    ascii "th,td\x7bpadding:8px 10px;border-bottom:1px solid #eee;font-size:13px;" ++
    ascii "vertical-align:top;\x7d" ++
    ascii "th\x7bbackground:#f3f4f6;text-align:left;font-weight:600;color:#222;\x7d" ++
    ascii "tr:last-child td\x7bborder-bottom:none;\x7d" ++
    ascii ".num\x7btext-align:right;white-space:nowrap;\x7d" ++
    ascii ".muted\x7bcolor:#666;\x7d" ++
    ascii "</style></head><body>" ++
    ascii "<h1>Privacy Compliance Report</h1>" ++
    ascii "<div class=\"meta\">"

def strongLine (label : Str) (value : List Piece) : List Piece :=
  [.raw (ascii "<div><strong>" ++ label ++ ascii ":</strong> ")] ++ value ++ [.raw (ascii "</div>")]

/-- A line that is there if its number is. -/
def optionalLine (label : Str) : Option UInt64 → List Piece
  | some value => strongLine label [.number value.toNat]
  | none => []

def pageHead (path : Bytes) (data : ReceiptsReportData) : List Piece :=
  [.raw pageOpen] ++
    strongLine (ascii "Receipts file")
      [.raw (ascii "<code>"), .text (display path), .raw (ascii "</code>")] ++
    optionalLine (ascii "Version") data.version ++
    optionalLine (ascii "Generated (unix)") data.generatedUnix ++
    [.raw (ascii "</div>")]

def pageEnd : List Piece := [.raw (ascii "</body></html>")]

def emptyCard : List Piece :=
  [.raw (ascii "<div class=\"card\"><em>(no hosts recorded yet)</em></div>")]

def tableOpen : List Piece := [.raw (ascii "<table><thead><tr>")]

def textHeading (name : Str) : List Piece := [.raw (ascii "<th>" ++ name ++ ascii "</th>")]

def numHeading (name : Str) : List Piece :=
  [.raw (ascii "<th class=\"num\">" ++ name ++ ascii "</th>")]

def tableBody : List Piece := [.raw (ascii "</tr></thead><tbody>")]

def tableEnd : List Piece := [.raw (ascii "</tbody></table>")]

def hostCell (host : Str) : List Piece :=
  [.raw (ascii "<td><code>"), .text host, .raw (ascii "</code></td>")]

def numCell (value : UInt64) : List Piece :=
  [.raw (ascii "<td class=\"num\">"), .number value.toNat, .raw (ascii "</td>")]

def reasonCell (reason : Option Str) : List Piece :=
  [.raw (ascii "<td>"), .text (reason.getD (ascii "-")), .raw (ascii "</td>")]

/-! ### One host -/

/-- The hosts that a filter names, those seen last first. -/
def matchedHosts (hosts : List (Str × HostReceiptFields)) (filter : Str) :
    List (Str × HostReceiptFields) :=
  (hosts.filter fun (h, _) => h = filter || (46 :: filter).isSuffixOf h).mergeSort
    fun a b => decide (b.2.lastSeenUnix ≤ a.2.lastSeenUnix)

def filterCard (filter : Str) (count : Nat) : List Piece :=
  [.raw (ascii "<div class=\"card\">")] ++
    strongLine (ascii "Host filter")
      [.raw (ascii "<code>"), .text filter, .raw (ascii "</code>")] ++
    [.raw (ascii "<div class=\"muted\">Matches: "), .number count, .raw (ascii "</div></div>")]

def filterHeadings : List Piece :=
  tableOpen ++ textHeading (ascii "Host") ++ numHeading (ascii "Seen") ++
    numHeading (ascii "MITM") ++ numHeading (ascii "Pass") ++ numHeading (ascii "DNS blk") ++
    numHeading (ascii "CK hdrs") ++ numHeading (ascii "HTML rw") ++ numHeading (ascii "Scr rm") ++
    numHeading (ascii "Pix rm") ++ numHeading (ascii "Cos rm") ++
    numHeading (ascii "Bytes saved") ++ textHeading (ascii "Last reason") ++ tableBody

def filterRow (row : Str × HostReceiptFields) : List Piece :=
  let r := row.2
  let bodyTotal := saturatingAdd r.bodyRewriteTotal r.bodyRewriteReportOnlyTotal
  [.raw (ascii "<tr>")] ++ hostCell row.1 ++ numCell r.seenTotal ++ numCell r.routingMitmTotal ++
    numCell r.routingPassthroughTotal ++ numCell r.dnsBlockedTotal ++
    numCell r.policySetCookieHeadersTotal ++ numCell bodyTotal ++
    numCell r.bodyRewriteRemovedScriptTotal ++ numCell r.bodyRewriteRemovedPixelTotal ++
    numCell r.bodyRewriteRemovedCosmeticTotal ++ numCell r.bodyRewriteBytesSavedTotal ++
    reasonCell r.lastReason ++ [.raw (ascii "</tr>")]

def filteredBody (hosts : List (Str × HostReceiptFields)) (filter : Str) : List Piece :=
  let matched := matchedHosts hosts filter
  filterCard filter matched.length ++ filterHeadings ++ matched.flatMap filterRow ++ tableEnd ++
    pageEnd

/-! ### All hosts -/

def totalsOf (hosts : List (Str × HostReceiptFields)) : ComplianceTotals :=
  hosts.foldl (fun totals host => totals.add host.2) {}

def removedLine (label : Str) (scripts pixels cosmetic bytesSaved : UInt64) : List Piece :=
  strongLine label
    [.raw (ascii "scripts="), .number scripts.toNat, .raw (ascii " pixels="),
      .number pixels.toNat, .raw (ascii " cosmetic="), .number cosmetic.toNat,
      .raw (ascii " bytes_saved="), .number bytesSaved.toNat]

/-- Whether something has been removed. -/
def ComplianceTotals.removed (totals : ComplianceTotals) : Bool :=
  totals.bodyRewriteRemovedScriptTotal > 0 || totals.bodyRewriteRemovedPixelTotal > 0 ||
    totals.bodyRewriteRemovedCosmeticTotal > 0 || totals.bodyRewriteBytesSavedTotal > 0

/-- Whether something would have been removed. -/
def ComplianceTotals.removedReportOnly (totals : ComplianceTotals) : Bool :=
  totals.bodyRewriteRemovedScriptReportOnlyTotal > 0 ||
    totals.bodyRewriteRemovedPixelReportOnlyTotal > 0 ||
    totals.bodyRewriteRemovedCosmeticReportOnlyTotal > 0 ||
    totals.bodyRewriteBytesSavedReportOnlyTotal > 0

def percentLine (label : Str) (numer denom : UInt64) : List Piece :=
  strongLine label [.text (fmtPercent numer denom)]

def totalsLines (totals : ComplianceTotals) : List Piece :=
  let cookieEvents :=
    saturatingAdd totals.cookieStrippedEventsTotal totals.cookieReportOnlyEventsTotal
  let dnsEvents := saturatingAdd totals.dnsBlockedTotal totals.dnsReportOnlyTotal
  let consentEvents := saturatingAdd totals.consentBlockedTotal totals.consentReportOnlyTotal
  let bodyEvents :=
    saturatingAdd totals.bodyRewriteEnforceTotal totals.bodyRewriteReportOnlyTotal
  let bodyAttempted := saturatingAdd bodyEvents totals.bodyRewriteSkippedTotal
  [.raw (ascii "<div class=\"card\">")] ++
    strongLine (ascii "Hosts") [.number totals.hosts.toNat] ++
    strongLine (ascii "Seen total") [.number totals.seenTotal.toNat] ++
    percentLine (ascii "MITM success rate") totals.mitmSuccessTotal totals.mitmAttemptTotal ++
    percentLine (ascii "DNS enforce ratio") totals.dnsBlockedTotal dnsEvents ++
    percentLine (ascii "Cookie enforce ratio") totals.cookieStrippedEventsTotal cookieEvents ++
    percentLine (ascii "Consent enforce ratio") totals.consentBlockedTotal consentEvents ++
    percentLine (ascii "HTML rewrite enforce ratio") totals.bodyRewriteEnforceTotal bodyEvents ++
    percentLine (ascii "HTML rewrite skip rate") totals.bodyRewriteSkippedTotal bodyAttempted

def removedLines (totals : ComplianceTotals) : List Piece :=
  if totals.removed then
    removedLine (ascii "HTML removed (enforce)") totals.bodyRewriteRemovedScriptTotal
      totals.bodyRewriteRemovedPixelTotal totals.bodyRewriteRemovedCosmeticTotal
      totals.bodyRewriteBytesSavedTotal
  else []

def removedReportOnlyLines (totals : ComplianceTotals) : List Piece :=
  if totals.removedReportOnly then
    removedLine (ascii "HTML removed (report_only)")
      totals.bodyRewriteRemovedScriptReportOnlyTotal totals.bodyRewriteRemovedPixelReportOnlyTotal
      totals.bodyRewriteRemovedCosmeticReportOnlyTotal
      totals.bodyRewriteBytesSavedReportOnlyTotal
  else []

def complianceActions (r : HostReceiptFields) : UInt64 :=
  [r.dnsReportOnlyTotal, r.dnsCnameUncloakedTotal, r.policySetCookieStrippedTotal,
    r.policySetCookieWouldStripTotal, r.bodyRewriteTotal, r.bodyRewriteReportOnlyTotal,
    r.bodyRewriteSkippedTotal, r.consentEnforcementBlockedTotal,
    r.consentEnforcementReportOnlyTotal].foldl saturatingAdd r.dnsBlockedTotal

/-- The hosts with most actions, those with most first. -/
def topRows (hosts : List (Str × HostReceiptFields)) (topHosts : Nat) :
    List (Str × HostReceiptFields) :=
  ((hosts.filter fun (_, r) => complianceActions r > 0).mergeSort
    fun a b => decide (complianceActions b.2 ≤ complianceActions a.2)).take
      (max 1 (min topHosts 200))

def topHeadings : List Piece :=
  [.raw (ascii "</div>"), .raw (ascii "<h2>Top Domains (by compliance actions)</h2>")] ++
    tableOpen ++ textHeading (ascii "Host") ++ numHeading (ascii "Actions") ++
    numHeading (ascii "DNS blk") ++ numHeading (ascii "CNAME") ++ numHeading (ascii "CK hdrs") ++
    numHeading (ascii "HTML rw") ++ numHeading (ascii "HTML skip") ++
    numHeading (ascii "Scr rm") ++ numHeading (ascii "Pix rm") ++ numHeading (ascii "Cos rm") ++
    numHeading (ascii "Bytes saved") ++ textHeading (ascii "Last reason") ++ tableBody

def topRow (row : Str × HostReceiptFields) : List Piece :=
  let r := row.2
  let htmlRw := saturatingAdd r.bodyRewriteTotal r.bodyRewriteReportOnlyTotal
  [.raw (ascii "<tr>")] ++ hostCell row.1 ++ numCell (complianceActions r) ++
    numCell r.dnsBlockedTotal ++ numCell r.dnsCnameUncloakedTotal ++
    numCell r.policySetCookieHeadersTotal ++ numCell htmlRw ++
    numCell r.bodyRewriteSkippedTotal ++ numCell r.bodyRewriteRemovedScriptTotal ++
    numCell r.bodyRewriteRemovedPixelTotal ++ numCell r.bodyRewriteRemovedCosmeticTotal ++
    numCell r.bodyRewriteBytesSavedTotal ++ reasonCell r.lastReason ++ [.raw (ascii "</tr>")]

def note : List Piece :=
  [.raw (ascii "<p class=\"muted\">html_rewrite counters track rewritten responses; " ++
    ascii "element removals are best-effort and may undercount/overcount due to selector " ++
    ascii "overlap.</p>")]

def overviewBody (hosts : List (Str × HostReceiptFields)) (topHosts : Nat) : List Piece :=
  let totals := totalsOf hosts
  totalsLines totals ++ removedLines totals ++ removedReportOnlyLines totals ++ topHeadings ++
    (topRows hosts topHosts).flatMap topRow ++ tableEnd ++ note ++ pageEnd

/-! ## The page -/

def reportPieces (path : Bytes) (data : ReceiptsReportData) (topHosts : Nat)
    (hostFilter : Option Str) : List Piece :=
  pageHead path data ++
    if data.hosts.isEmpty then emptyCard ++ pageEnd
    else
      match hostFilter with
      | some filter => filteredBody data.hosts (normalizeHost filter)
      | none => overviewBody data.hosts topHosts

def renderComplianceReportHtml (serde : Serde) (disk : Files Bytes Bytes) (path : Bytes)
    (topHosts : Nat) (hostFilter : Option Str) : Except IoError Str := do
  let data ← loadReceiptsForReporting serde disk path
  return render (reportPieces path data topHosts hostFilter)

/-! ## The markup of the page -/

inductive ReportBody where
  | empty
  | filtered (rows : Nat)
  | overview (removed removedReportOnly : Bool) (rows : Nat)

/-- Which optional parts a page has, and how many rows. -/
structure ReportShape where
  version : Bool
  generatedUnix : Bool
  body : ReportBody

def reportBody (hosts : List (Str × HostReceiptFields)) (topHosts : Nat) :
    Option Str → ReportBody
  | some filter => .filtered (matchedHosts hosts (normalizeHost filter)).length
  | none =>
      .overview (totalsOf hosts).removed (totalsOf hosts).removedReportOnly
        (topRows hosts topHosts).length

def reportShape (data : ReceiptsReportData) (topHosts : Nat) (hostFilter : Option Str) :
    ReportShape where
  version := data.version.isSome
  generatedUnix := data.generatedUnix.isSome
  body := if data.hosts.isEmpty then .empty else reportBody data.hosts topHosts hostFilter

/-- The body of such a page in which no text is put in and nothing has been counted. -/
def ReportBody.blank : ReportBody → List Piece
  | empty => emptyCard ++ pageEnd
  | filtered rows =>
      filterCard [] 0 ++ filterHeadings ++ (List.replicate rows ([], {})).flatMap filterRow ++
        tableEnd ++ pageEnd
  | overview removed removedReportOnly rows =>
      totalsLines {} ++
        (if removed then removedLine (ascii "HTML removed (enforce)") 0 0 0 0 else []) ++
        (if removedReportOnly then removedLine (ascii "HTML removed (report_only)") 0 0 0 0
          else []) ++
        topHeadings ++ (List.replicate rows ([], {})).flatMap topRow ++ tableEnd ++ note ++ pageEnd

/-- The page of a shape in which no text is put in and nothing has been counted. -/
def ReportShape.blank (shape : ReportShape) : List Piece :=
  pageHead [] ⟨if shape.version then some 0 else none,
    if shape.generatedUnix then some 0 else none, []⟩ ++ shape.body.blank

@[simp] theorem raws_hostCell (host : Str) :
    raws (hostCell host) = [ascii "<td><code>", ascii "</code></td>"] := rfl

@[simp] theorem raws_numCell (value : UInt64) :
    raws (numCell value) = [ascii "<td class=\"num\">", ascii "</td>"] := rfl

@[simp] theorem raws_reasonCell (reason : Option Str) :
    raws (reasonCell reason) = [ascii "<td>", ascii "</td>"] := rfl

@[simp] theorem raws_strongLine (label : Str) (value : List Piece) :
    raws (strongLine label value) =
      (ascii "<div><strong>" ++ label ++ ascii ":</strong> ") :: raws value ++
        [ascii "</div>"] := by
  rw [strongLine, raws_append, raws_append]
  rfl

theorem raws_filterRow (row : Str × HostReceiptFields) :
    raws (filterRow row) = raws (filterRow ([], {})) := by
  simp [filterRow]

theorem raws_topRow (row : Str × HostReceiptFields) :
    raws (topRow row) = raws (topRow ([], {})) := by
  simp [topRow]

theorem raws_filterCard (filter : Str) (count : Nat) :
    raws (filterCard filter count) = raws (filterCard [] 0) := by
  simp [filterCard]

theorem raws_totalsLines (totals : ComplianceTotals) :
    raws (totalsLines totals) = raws (totalsLines {}) := by
  simp [totalsLines, percentLine]

theorem raws_removedLine (label : Str) (scripts pixels cosmetic bytesSaved : UInt64) :
    raws (removedLine label scripts pixels cosmetic bytesSaved) =
      raws (removedLine label 0 0 0 0) := by
  simp [removedLine]

theorem raws_optionalLine (label : Str) (value : Option UInt64) :
    raws (optionalLine label value) =
      raws (optionalLine label (if value.isSome then some 0 else none)) := by
  cases value with
  | none => rfl
  | some value => simp [optionalLine]

theorem raws_pageHead (path : Bytes) (data : ReceiptsReportData) :
    raws (pageHead path data) =
      raws (pageHead [] ⟨if data.version.isSome then some 0 else none,
        if data.generatedUnix.isSome then some 0 else none, []⟩) := by
  simp only [pageHead, raws_append, raws_strongLine, raws_raw, raws_text,
    raws_optionalLine _ data.version, raws_optionalLine _ data.generatedUnix]

theorem raws_filteredBody (hosts : List (Str × HostReceiptFields)) (filter : Str) :
    raws (filteredBody hosts filter) =
      raws (ReportBody.filtered (matchedHosts hosts filter).length).blank := by
  simp only [filteredBody, ReportBody.blank, raws_append, raws_filterCard filter,
    raws_flatMap raws_filterRow, List.length_replicate]

theorem raws_overviewBody (hosts : List (Str × HostReceiptFields)) (topHosts : Nat) :
    raws (overviewBody hosts topHosts) =
      raws (ReportBody.overview (totalsOf hosts).removed (totalsOf hosts).removedReportOnly
        (topRows hosts topHosts).length).blank := by
  have removed : raws (removedLines (totalsOf hosts)) =
      raws (if (totalsOf hosts).removed then
        removedLine (ascii "HTML removed (enforce)") 0 0 0 0 else []) := by
    rw [removedLines]
    split
    · exact raws_removedLine ..
    · rfl
  have removedReportOnly : raws (removedReportOnlyLines (totalsOf hosts)) =
      raws (if (totalsOf hosts).removedReportOnly then
        removedLine (ascii "HTML removed (report_only)") 0 0 0 0 else []) := by
    rw [removedReportOnlyLines]
    split
    · exact raws_removedLine ..
    · rfl
  simp only [overviewBody, ReportBody.blank, raws_append, raws_totalsLines (totalsOf hosts),
    removed, removedReportOnly, raws_flatMap raws_topRow, List.length_replicate]

/-- What is put into a page as it is depends on its shape only. -/
theorem raws_reportPieces (path : Bytes) (data : ReceiptsReportData) (topHosts : Nat)
    (hostFilter : Option Str) :
    raws (reportPieces path data topHosts hostFilter) =
      raws (reportShape data topHosts hostFilter).blank := by
  unfold reportPieces
  rw [ReportShape.blank, raws_append, raws_append, raws_pageHead path data]
  refine congrArg _ ?_
  simp only [reportShape]
  split
  · rfl
  · cases hostFilter with
    | none => exact raws_overviewBody data.hosts topHosts
    | some filter => exact raws_filteredBody data.hosts (normalizeHost filter)

/-- Escaped text has none of the brackets and quotes of HTML and every ampersand in it starts an
entity, the text can be got back from it, and it is the only form in which names, filters, reasons
and paths get into a report: the rest of a page, and with it the number of its opening brackets, is
that of the blank page of its shape. -/
theorem renderComplianceReportHtml_escapes :
    (∀ s, Escaped (escapeHtml s) ∧ unescapeHtml (escapeHtml s) = s) ∧
    Function.Injective escapeHtml ∧
    ∀ serde disk path topHosts hostFilter page,
      renderComplianceReportHtml serde disk path topHosts hostFilter = .ok page →
      ∃ data, loadReceiptsForReporting serde disk path = .ok data ∧
        page = render (reportPieces path data topHosts hostFilter) ∧
        raws (reportPieces path data topHosts hostFilter) =
          raws (reportShape data topHosts hostFilter).blank ∧
        page.count 60 = tags (reportShape data topHosts hostFilter).blank := by
  refine ⟨fun s => ⟨escaped_escapeHtml s, unescapeHtml_escapeHtml s⟩, escapeHtml_injective, ?_⟩
  intro serde disk path topHosts hostFilter page rendered
  obtain ⟨data, loaded, pieces⟩ := bind_eq_ok_iff.mp rendered
  cases pieces
  have shaped := raws_reportPieces path data topHosts hostFilter
  refine ⟨data, loaded, rfl, shaped, ?_⟩
  rw [count_render, tags, shaped, tags]

end PrivacyEngine
