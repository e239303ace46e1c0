import PrivacyEngine.Policy.Parse
import PrivacyEngine.Policy.Domains
import PrivacyEngine.Policy.Accepted
import PrivacyEngine.Policy.Consent
import PrivacyEngine.Mitm.Response
import PrivacyEngine.Mitm.RelayRun
import PrivacyEngine.Mitm.Conservation
import PrivacyEngine.Wire.Lines
import PrivacyEngine.Wire.Strict
import PrivacyEngine.Mitm.OutputHeaders
import PrivacyEngine.Mitm.CookieLeak
import PrivacyEngine.Mitm.Progress
import PrivacyEngine.Mitm.Truncation
import PrivacyEngine.Mitm.Reframe
import PrivacyEngine.Mitm.Session
import PrivacyEngine.Mitm.ReportOnly
import PrivacyEngine.Mitm.RequestHead
import PrivacyEngine.Mitm.RequestFilter
import PrivacyEngine.Mitm.RequestCuts
import PrivacyEngine.Mitm.Tunnel
import PrivacyEngine.Mitm.Segmentation
import PrivacyEngine.Dns.Message
import PrivacyEngine.Dns.Delivery
import PrivacyEngine.Wire.Json
import PrivacyEngine.Policy.Reload
import PrivacyEngine.Store.FileSystem
import PrivacyEngine.Store.Persist
import PrivacyEngine.Store.HostKeys
import PrivacyEngine.Store.PinnedHosts
import PrivacyEngine.Store.CertPin
import PrivacyEngine.Store.CertPinRuns
import PrivacyEngine.Store.CertPinHits
import PrivacyEngine.Store.Receipts
import PrivacyEngine.Store.Replacement
import PrivacyEngine.Store.ReceiptFlush
import PrivacyEngine.Dns.Starvation
import PrivacyEngine.Dns.Doh
import PrivacyEngine.Proxy.HostSeparation
import PrivacyEngine.Mitm.SetCookieFilter
import PrivacyEngine.Mitm.ChunkedCodec
import PrivacyEngine.Lists.Download
import PrivacyEngine.Mitm.UnnamedLines
import PrivacyEngine.Proxy.Authority
import PrivacyEngine.Proxy.Routing
import PrivacyEngine.Proxy.Classification
import PrivacyEngine.Lists.Parser
import PrivacyEngine.Lists.Rules
import PrivacyEngine.Interaction
import PrivacyEngine.Proxy.Connection
import PrivacyEngine.Proxy.Accounting
import PrivacyEngine.Store.ReceiptFile
import PrivacyEngine.Store.ReceiptLaws
import PrivacyEngine.Proxy.ReceiptSessions
import PrivacyEngine.Proxy.ReceiptRuns
import PrivacyEngine.Policy.Strict
import PrivacyEngine.Lists.Aggregate
import PrivacyEngine.Mitm.Selectors
import PrivacyEngine.Lists.Exceptions
import PrivacyEngine.Lists.Cache
import PrivacyEngine.Mitm.TransferEncoding
import PrivacyEngine.Mitm.RequestRewrite
import PrivacyEngine.Proxy.SniParser
import PrivacyEngine.Store.ReceiptCodec
import PrivacyEngine.Lists.Response
import PrivacyEngine.Proxy.ClientHello
import PrivacyEngine.Proxy.OriginForm
import PrivacyEngine.Store.ComplianceReport
import PrivacyEngine.Mitm.Account
import PrivacyEngine.Mitm.Ledger
import PrivacyEngine.Mitm.Resync
import PrivacyEngine.Retention
import PrivacyEngine.Dns.DohStats
import PrivacyEngine.Dns.Transparency
import PrivacyEngine.Dns.Decisions
import PrivacyEngine.Lists.Refresh
import PrivacyEngine.Lists.Fetch
import PrivacyEngine.Wire.Base64
import PrivacyEngine.Dns.DohRequests
import PrivacyEngine.Proxy.AutoPin
import PrivacyEngine.Settings
import PrivacyEngine.Engine.Config
import PrivacyEngine.Engine.Documents
import PrivacyEngine.Mitm.CaFiles
import PrivacyEngine.Shared
import PrivacyEngine.Mitm.LeafCerts
import PrivacyEngine.Proxy.Dashboard
