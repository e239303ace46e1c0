import PrivacyEngine.Mitm.Headers

/-!
# Filters on the first request

Each filter reads one buffer and returns the changed buffer, or nothing when it does not apply.
They decode the whole buffer strictly, so one ill-formed byte anywhere in it disables them.
-/

namespace PrivacyEngine

open Wire

/-- Whether the text before the first colon of a line is one of the given names. -/
def lineKeyIn (names : List Str) (line : Str) : Bool :=
  match splitOnce 58 line with
  | some (key, _) => names.any (eqIgnoreAsciiCase (trim key))
  | none => false

/-- A decoded buffer cut at its first empty line: the header section and the rest, which starts
with the empty line. -/
def cutHead (buf : Bytes) : Option (Str × Str) := do
  let s ← fromUtf8 buf
  let headerEnd ← findSub crlfcrlf s
  some (s.take headerEnd, s.drop headerEnd)

def googleReferer : Str := ascii "Referer: https://www.google.com/"

def injectGoogleReferer (buf : Bytes) : Option Bytes := do
  let (headerSection, afterHeaders) ← cutHead buf
  let lines := (splitCrlf headerSection).filter (!lineKeyIn [ascii "referer"] ·)
  some (joinCrlf (lines ++ [googleReferer]) ++ afterHeaders)

def trackingQueryParams : List Str :=
  [ascii "fbclid", ascii "gclid", ascii "gbraid", ascii "wbraid", ascii "dclid",
    ascii "utm_source", ascii "utm_medium", ascii "utm_campaign", ascii "utm_term",
    ascii "utm_content", ascii "_ga", ascii "_gl", ascii "msclkid", ascii "twclid",
    ascii "li_fat_id", ascii "mc_eid"]

/-- Whether the part of a query parameter before its first equals sign is a tracking name. -/
def isTrackingParam (param : Str) : Bool :=
  trackingQueryParams.any fun name => eqIgnoreAsciiCase name (param.takeWhile (· ≠ 61))

/-- The request line without its tracking parameters, when it has any. -/
def stripRequestLine (firstLine : Str) : Option Str := do
  let (method, afterMethod) ← splitOnce 32 firstLine
  let (uri, version) ← splitOnce 32 afterMethod
  let (path, query) ← splitOnce 63 uri
  let params := query.splitOn 38
  if !params.any isTrackingParam then none
  else
    let kept := params.filter (!isTrackingParam ·)
    let target := if kept = [] then path else path ++ 63 :: [38].intercalate kept
    some (method ++ 32 :: target ++ 32 :: version)

def stripTrackingQueryParams (buf : Bytes) : Option Bytes := do
  let s ← fromUtf8 buf
  let firstLineEnd ← findSub crlf s
  let stripped ← stripRequestLine (s.take firstLineEnd)
  some (stripped ++ s.drop firstLineEnd)

def stripCacheRequestHeaders (buf : Bytes) : Option Bytes := do
  let (headerSection, afterHeaders) ← cutHead buf
  let lines := splitCrlf headerSection
  let kept := lines.filter (!lineKeyIn [ascii "if-none-match", ascii "if-modified-since"] ·)
  if kept.length = lines.length then none
  else some (joinCrlf kept ++ afterHeaders)

/-- Whether a line is an `Upgrade: websocket` field. -/
def isWebsocketUpgradeLine (line : Str) : Bool :=
  match splitOnce 58 line with
  | some (key, value) =>
      eqIgnoreAsciiCase (trim key) (ascii "upgrade") &&
        eqIgnoreAsciiCase (trim value) (ascii "websocket")
  | none => false

def requestHasWebsocketUpgrade (buf : Bytes) : Bool :=
  match fromUtf8 buf with
  | some s => (splitCrlf s).any isWebsocketUpgradeLine
  | none => false

end PrivacyEngine
