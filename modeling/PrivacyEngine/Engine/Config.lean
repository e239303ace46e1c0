import PrivacyEngine.Policy.Parse
import PrivacyEngine.Settings
import PrivacyEngine.Store.Persist

/-!
# The engine configuration

`EngineConfig::load_from_file`.  Every key has a kind, which says what it may be set to and with
which words it is refused otherwise; the keys are read in the order of the source, over the
defaults.  Paths are held as the texts they are given by.
-/

namespace PrivacyEngine

open Wire

/-- Cipher suites offered upstream. -/
inductive TlsProfile where
  | default
  | chrome
  deriving DecidableEq

structure EngineConfig where
  listenHost : Str := ascii "127.0.0.1"
  listenPort : UInt16 := 8080
  pinnedHostsFile : Str := ascii "sni_pinned_hosts.json"
  enableMitm : Bool := false
  mitmCaCertFile : Str := ascii "mitm_ca_cert.pem"
  mitmCaKeyFile : Str := ascii "mitm_ca_key.pem"
  mitmCaGenerateIfMissing : Bool := true
  mitmCaExportCertFile : Option Str := none
  tlsProfile : TlsProfile := .default
  metricsLogIntervalSecs : UInt64 := 30
  policyConfigFile : Option Str := none
  policyMode : Option PolicyMode := none
  policyReloadIntervalSecs : UInt64 := 5
  receiptsFile : Option Str := none
  receiptsFlushIntervalSecs : UInt64 := 30
  enableDnsFilter : Bool := false
  dnsListenHost : Str := ascii "127.0.0.1"
  dnsListenPort : UInt16 := 5353
  dnsUpstream : Str := ascii "8.8.8.8:53"
  dnsUpstreamDoh : Option Str := none
  filterListFile : List Str := []
  filterListUrl : List Str := []
  filterListCacheDir : Str := ascii "filter_list_cache"
  filterListRefreshSecs : UInt64 := 86400
  filterListDownloadTimeoutSecs : UInt64 := 30
  dashboardPort : Option UInt16 := none
  certLogFile : Option Str := none
  certPinFile : Option Str := none
  dohServerPort : Option UInt16 := none
  dohServerCertFile : Option Str := none
  dohServerKeyFile : Option Str := none
  deriving DecidableEq

/-! ## Kinds of settings -/

/-- The words for a policy mode are those of a policy file. -/
def parsePolicyModeStr (s : Str) : Option PolicyMode := PolicyMode.parseConfigValue s

def parseTlsProfileStr (s : Str) : Option TlsProfile :=
  let normalized := toAsciiLowercase (trim s)
  if normalized = ascii "default" then some .default
  else if normalized = ascii "chrome" then some .chrome
  else none

/-- What a key may be set to. -/
inductive SettingKind where
  | string
  | bool
  | u16
  | u64
  | strings
  /-- A string where the default is none. -/
  | optionalString
  /-- A string, or `null` for none. -/
  | nullableString
  | nullableU16
  | tlsProfile
  | policyMode
  deriving DecidableEq

@[reducible] def SettingKind.Value : SettingKind → Type
  | string => Str
  | bool => Bool
  | u16 => UInt16
  | u64 => UInt64
  | strings => List Str
  | optionalString | nullableString => Option Str
  | nullableU16 => Option UInt16
  | tlsProfile => TlsProfile
  | policyMode => Option PolicyMode

section Fields

def keyError (key expected : Str) : Str := ascii "engine config key " ++ quoted key ++ expected

/-- The member under a key, when there is one. -/
def getField {α : Type} (read : Json → Except IoError α) (members : Members) (key : Str) :
    Except IoError (Option α) :=
  match members.lookup key with
  | none => .ok none
  | some value => (read value).map some

variable (members : Members) (key : Str)

def getStringField : Except IoError (Option Str) :=
  getField (fun value => orInvalid value.asStr (keyError key (ascii " must be a string")))
    members key

def getBoolField : Except IoError (Option Bool) :=
  getField (fun value => orInvalid value.asBool (keyError key (ascii " must be a boolean")))
    members key

def getU16Field : Except IoError (Option UInt16) :=
  getField (fun value => do
    let n ← orInvalid value.asU64 (keyError key (ascii " must be a number"))
    orInvalid (if n.toNat < UInt16.size then some n.toUInt16 else none)
      (keyError key (ascii " out of range for u16"))) members key

def getU64Field : Except IoError (Option UInt64) :=
  getField (fun value => orInvalid value.asU64 (keyError key (ascii " must be a number")))
    members key

def getStringArrayField : Except IoError (Option (List Str)) :=
  getField (fun value => do
    let entries ← orInvalid value.asArray (keyError key (ascii " must be a JSON array"))
    entries.mapM fun entry =>
      orInvalid entry.asStr (keyError key (ascii " array entries must be strings"))) members key

/-- A field that `null` sets to none. -/
def getNullableField {α : Type} (get : Members → Str → Except IoError (Option α)) :
    Except IoError (Option (Option α)) :=
  match members.lookup key with
  | none => .ok none
  | some .null => .ok (some none)
  | some _ => (get members key).map some

/-- A word that has to be known. -/
def getWordField {α : Type} (parse : Str → Option α) (expected : Str) :
    Except IoError (Option α) := do
  match ← getStringField members key with
  | none => return none
  | some word =>
      (orInvalid (parse word)
        (ascii "invalid " ++ key ++ (ascii " " ++ quoted word ++ expected))).map some

def SettingKind.read : (kind : SettingKind) → Except IoError (Option kind.Value)
  | string => getStringField members key
  | bool => getBoolField members key
  | u16 => getU16Field members key
  | u64 => getU64Field members key
  | strings => getStringArrayField members key
  | optionalString => (getStringField members key).map (·.map some)
  | nullableString => getNullableField members key getStringField
  | nullableU16 => getNullableField members key getU16Field
  | tlsProfile =>
      getWordField members key parseTlsProfileStr (ascii " (expected: default|chrome)")
  | policyMode =>
      (getWordField members key parsePolicyModeStr
        (ascii " (expected: disabled|report_only|enforce)")).map (·.map some)

end Fields

/-! ## Keys -/

inductive EngineKey where
  | listenHost
  | listenPort
  | pinnedHostsFile
  | enableMitm
  | mitmCaCertFile
  | mitmCaKeyFile
  | mitmCaGenerateIfMissing
  | mitmCaExportCertFile
  | tlsProfile
  | metricsLogIntervalSecs
  | policyConfigFile
  | policyMode
  | policyReloadIntervalSecs
  | receiptsFile
  | receiptsFlushIntervalSecs
  | enableDnsFilter
  | dnsListenHost
  | dnsListenPort
  | dnsUpstream
  | dnsUpstreamDoh
  | filterListFile
  | filterListUrl
  | filterListCacheDir
  | filterListRefreshSecs
  | filterListDownloadTimeoutSecs
  | dashboardPort
  | certLogFile
  | certPinFile
  | dohServerPort
  | dohServerCertFile
  | dohServerKeyFile
  deriving DecidableEq

namespace EngineKey

/-- In the order in which they are read. -/
def all : List EngineKey :=
  [listenHost, listenPort, pinnedHostsFile, enableMitm, mitmCaCertFile, mitmCaKeyFile,
    mitmCaGenerateIfMissing, mitmCaExportCertFile, tlsProfile, metricsLogIntervalSecs,
    policyConfigFile, policyMode, policyReloadIntervalSecs, receiptsFile,
    receiptsFlushIntervalSecs, enableDnsFilter, dnsListenHost, dnsListenPort, dnsUpstream,
    dnsUpstreamDoh, filterListFile, filterListUrl, filterListCacheDir, filterListRefreshSecs,
    filterListDownloadTimeoutSecs, dashboardPort, certLogFile, certPinFile, dohServerPort,
    dohServerCertFile, dohServerKeyFile]

def asStr : EngineKey → Str
  | listenHost => ascii "listen_host"
  | listenPort => ascii "listen_port"
  | pinnedHostsFile => ascii "pinned_hosts_file"
  | enableMitm => ascii "enable_mitm"
  | mitmCaCertFile => ascii "mitm_ca_cert_file"
  | mitmCaKeyFile => ascii "mitm_ca_key_file"
  | mitmCaGenerateIfMissing => ascii "mitm_ca_generate_if_missing"
  | mitmCaExportCertFile => ascii "mitm_ca_export_cert_file"
  | tlsProfile => ascii "tls_profile"
  | metricsLogIntervalSecs => ascii "metrics_log_interval_secs"
  | policyConfigFile => ascii "policy_config_file"
  | policyMode => ascii "policy_mode"
  | policyReloadIntervalSecs => ascii "policy_reload_interval_secs"
  | receiptsFile => ascii "receipts_file"
  | receiptsFlushIntervalSecs => ascii "receipts_flush_interval_secs"
  | enableDnsFilter => ascii "enable_dns_filter"
  | dnsListenHost => ascii "dns_listen_host"
  | dnsListenPort => ascii "dns_listen_port"
  | dnsUpstream => ascii "dns_upstream"
  | dnsUpstreamDoh => ascii "dns_upstream_doh"
  | filterListFile => ascii "filter_list_file"
  | filterListUrl => ascii "filter_list_url"
  | filterListCacheDir => ascii "filter_list_cache_dir"
  | filterListRefreshSecs => ascii "filter_list_refresh_secs"
  | filterListDownloadTimeoutSecs => ascii "filter_list_download_timeout_secs"
  | dashboardPort => ascii "dashboard_port"
  | certLogFile => ascii "cert_log_file"
  | certPinFile => ascii "cert_pin_file"
  | dohServerPort => ascii "doh_server_port"
  | dohServerCertFile => ascii "doh_server_cert_file"
  | dohServerKeyFile => ascii "doh_server_key_file"

@[reducible] def kind : EngineKey → SettingKind
  | listenHost | pinnedHostsFile | mitmCaCertFile | mitmCaKeyFile | dnsListenHost | dnsUpstream
  | filterListCacheDir => .string
  | enableMitm | mitmCaGenerateIfMissing | enableDnsFilter => .bool
  | listenPort | dnsListenPort => .u16
  | metricsLogIntervalSecs | policyReloadIntervalSecs | receiptsFlushIntervalSecs
  | filterListRefreshSecs | filterListDownloadTimeoutSecs => .u64
  | filterListFile | filterListUrl => .strings
  | dnsUpstreamDoh => .optionalString
  | mitmCaExportCertFile | policyConfigFile | receiptsFile | certLogFile | certPinFile
  | dohServerCertFile | dohServerKeyFile => .nullableString
  | dashboardPort | dohServerPort => .nullableU16
  | tlsProfile => .tlsProfile
  | policyMode => .policyMode

def read (members : Members) (key : EngineKey) : Except IoError (Option key.kind.Value) :=
  key.kind.read members key.asStr

end EngineKey

namespace EngineConfig

/-- The value of each key. -/
def value (cfg : EngineConfig) : ∀ key : EngineKey, key.kind.Value
  | .listenHost => cfg.listenHost
  | .listenPort => cfg.listenPort
  | .pinnedHostsFile => cfg.pinnedHostsFile
  | .enableMitm => cfg.enableMitm
  | .mitmCaCertFile => cfg.mitmCaCertFile
  | .mitmCaKeyFile => cfg.mitmCaKeyFile
  | .mitmCaGenerateIfMissing => cfg.mitmCaGenerateIfMissing
  | .mitmCaExportCertFile => cfg.mitmCaExportCertFile
  | .tlsProfile => cfg.tlsProfile
  | .metricsLogIntervalSecs => cfg.metricsLogIntervalSecs
  | .policyConfigFile => cfg.policyConfigFile
  | .policyMode => cfg.policyMode
  | .policyReloadIntervalSecs => cfg.policyReloadIntervalSecs
  | .receiptsFile => cfg.receiptsFile
  | .receiptsFlushIntervalSecs => cfg.receiptsFlushIntervalSecs
  | .enableDnsFilter => cfg.enableDnsFilter
  | .dnsListenHost => cfg.dnsListenHost
  | .dnsListenPort => cfg.dnsListenPort
  | .dnsUpstream => cfg.dnsUpstream
  | .dnsUpstreamDoh => cfg.dnsUpstreamDoh
  | .filterListFile => cfg.filterListFile
  | .filterListUrl => cfg.filterListUrl
  | .filterListCacheDir => cfg.filterListCacheDir
  | .filterListRefreshSecs => cfg.filterListRefreshSecs
  | .filterListDownloadTimeoutSecs => cfg.filterListDownloadTimeoutSecs
  | .dashboardPort => cfg.dashboardPort
  | .certLogFile => cfg.certLogFile
  | .certPinFile => cfg.certPinFile
  | .dohServerPort => cfg.dohServerPort
  | .dohServerCertFile => cfg.dohServerCertFile
  | .dohServerKeyFile => cfg.dohServerKeyFile

def ofValues (values : ∀ key : EngineKey, key.kind.Value) : EngineConfig where
  listenHost := values .listenHost
  listenPort := values .listenPort
  pinnedHostsFile := values .pinnedHostsFile
  enableMitm := values .enableMitm
  mitmCaCertFile := values .mitmCaCertFile
  mitmCaKeyFile := values .mitmCaKeyFile
  mitmCaGenerateIfMissing := values .mitmCaGenerateIfMissing
  mitmCaExportCertFile := values .mitmCaExportCertFile
  tlsProfile := values .tlsProfile
  metricsLogIntervalSecs := values .metricsLogIntervalSecs
  policyConfigFile := values .policyConfigFile
  policyMode := values .policyMode
  policyReloadIntervalSecs := values .policyReloadIntervalSecs
  receiptsFile := values .receiptsFile
  receiptsFlushIntervalSecs := values .receiptsFlushIntervalSecs
  enableDnsFilter := values .enableDnsFilter
  dnsListenHost := values .dnsListenHost
  dnsListenPort := values .dnsListenPort
  dnsUpstream := values .dnsUpstream
  dnsUpstreamDoh := values .dnsUpstreamDoh
  filterListFile := values .filterListFile
  filterListUrl := values .filterListUrl
  filterListCacheDir := values .filterListCacheDir
  filterListRefreshSecs := values .filterListRefreshSecs
  filterListDownloadTimeoutSecs := values .filterListDownloadTimeoutSecs
  dashboardPort := values .dashboardPort
  certLogFile := values .certLogFile
  certPinFile := values .certPinFile
  dohServerPort := values .dohServerPort
  dohServerCertFile := values .dohServerCertFile
  dohServerKeyFile := values .dohServerKeyFile

theorem value_ofValues (values : ∀ key : EngineKey, key.kind.Value) :
    (ofValues values).value = values := by
  funext key
  cases key <;> rfl

theorem ofValues_value (cfg : EngineConfig) : ofValues cfg.value = cfg := rfl

/-- Keys that a file may have; `meta` is for comments. -/
def allowedKeys : List Str :=
  [ascii "meta", ascii "listen_host", ascii "listen_port", ascii "pinned_hosts_file",
    ascii "enable_mitm", ascii "mitm_ca_cert_file", ascii "mitm_ca_key_file",
    ascii "mitm_ca_generate_if_missing", ascii "mitm_ca_export_cert_file", ascii "tls_profile",
    ascii "metrics_log_interval_secs", ascii "policy_config_file", ascii "policy_mode",
    ascii "policy_reload_interval_secs", ascii "receipts_file",
    ascii "receipts_flush_interval_secs", ascii "enable_dns_filter", ascii "dns_listen_host",
    ascii "dns_listen_port", ascii "dns_upstream", ascii "dns_upstream_doh",
    ascii "filter_list_file", ascii "filter_list_url", ascii "filter_list_cache_dir",
    ascii "filter_list_refresh_secs", ascii "filter_list_download_timeout_secs",
    ascii "dashboard_port", ascii "cert_log_file", ascii "cert_pin_file", ascii "doh_server_port",
    ascii "doh_server_cert_file", ascii "doh_server_key_file"]

/-- What a parsed file is read as. -/
def fromJsonValue (parsed : Json) : Except IoError EngineConfig := do
  let members ← orInvalid parsed.asObject (ascii "engine config must be a JSON object")
  rejectUnknown allowedKeys members fun key => ascii "unknown engine config key: " ++ quoted key
  let values ← Settings.readAll (EngineKey.read members) EngineKey.all ({} : EngineConfig).value
  return ofValues values

def loadFromFile (serde : Serde) (path : FilePath) (disk : Disk) :
    Except IoError EngineConfig := do
  let raw ← readDisk disk path
  let parsed ← (serde.fromStr raw).mapError fun error =>
    invalidData (ascii "invalid engine config JSON: " ++ error)
  fromJsonValue parsed

end EngineConfig

end PrivacyEngine
