import PrivacyEngine.Wire.Split
import PrivacyEngine.Policy.Engine

/-!
# Reading and rewriting response header blocks

The helpers the relay applies to the header block of the first response.  All of them decode the
block lossily and look at its CRLF-separated lines; the rewriting ones drop lines by field name,
append a length and put the block back together.
-/

namespace PrivacyEngine

open Wire

/-- The lines of a text, separated by CRLF. -/
def splitCrlf (s : Str) : List Str := splitPair 13 10 s

/-- The lines joined by CRLF. -/
def joinCrlf (lines : List Str) : Str := joinPair 13 10 lines

/-- The non-empty lines of a header block after lossy decoding. -/
def nonEmptyLines (headerBlock : Bytes) : List Str :=
  (splitCrlf (Utf8.lossy headerBlock)).filter (· ≠ [])

/-- Lines joined by CRLF and closed by an empty line. -/
def closeHeaders (lines : List Str) : Bytes := joinCrlf lines ++ crlfcrlf

/-- Whether a line starts, in any ASCII case, with one of the field names. -/
def namesField (fields : List Str) (line : Str) : Bool := fields.any (startsWithLower line)

/-- Drop the lines that name one of the fields. -/
def withoutFields (fields : List Str) (lines : List Str) : List Str :=
  lines.filter (!namesField fields ·)

def responseIsHtmlLines : List Str → Bool
  | [] => false
  | line :: rest =>
      match splitOnce 58 line with
      | some (key, value) =>
          if eqIgnoreAsciiCase (trim key) (ascii "content-type") then
            startsWithLower (trim value) (ascii "text/html")
          else responseIsHtmlLines rest
      | none => responseIsHtmlLines rest

def responseIsHtml (headerBlock : Bytes) : Bool :=
  responseIsHtmlLines (splitCrlf (Utf8.lossy headerBlock))

/-- The trimmed value of the first line that starts with a field name. -/
def firstFieldValue (field : Str) (lines : List Str) : Option Str :=
  match lines.find? (startsWithLower · field) with
  | none => none
  | some line => (splitOnce 58 line).map fun cut => trim cut.2

def extractContentEncoding (headerBlock : Bytes) : Option Str :=
  (firstFieldValue (ascii "content-encoding:") (splitCrlf (Utf8.lossy headerBlock))).map
    toAsciiLowercase

def hasTransferEncodingChunked (headerBlock : Bytes) : Bool :=
  let headerStr := toAsciiLowercase (Utf8.lossy headerBlock)
  contains headerStr (ascii "transfer-encoding:") && contains headerStr (ascii "chunked")

def contentLengthField : Str := ascii "content-length:"

def extractContentLength (headerBlock : Bytes) : Option Nat :=
  (firstFieldValue contentLengthField (splitCrlf (Utf8.lossy headerBlock))).bind (fromStrRadix 10)

/-- Fields that become invalid when the body changes. -/
def bodyIntegrityFields : List Str :=
  [ascii "etag:", ascii "digest:", ascii "content-md5:", ascii "accept-ranges:", ascii "trailer:"]

def stripBodyIntegrityHeaders (lines : List Str) : List Str :=
  withoutFields bodyIntegrityFields lines

/-- The line that announces a body length. -/
def lengthLine (bodyLen : Nat) : Str := ascii "Content-Length: " ++ decimal bodyLen

/-- Replace the framing of a block: drop the given fields and the integrity fields, append a
Content-Length line and close the block. -/
def reframe (dropped : List Str) (headerBlock : Bytes) (bodyLen : Nat) : Bytes :=
  closeHeaders
    (stripBodyIntegrityHeaders (withoutFields dropped (nonEmptyLines headerBlock)) ++
      [lengthLine bodyLen])

def replaceChunkedWithContentLength (headerBlock : Bytes) (bodyLen : Nat) : Bytes :=
  reframe [ascii "transfer-encoding:", contentLengthField] headerBlock bodyLen

def replaceContentLength (headerBlock : Bytes) (newLength : Nat) : Bytes :=
  reframe [contentLengthField] headerBlock newLength

/-- Cache fields that identify a browser to a tracker. -/
def cacheTrackingFields : List Str :=
  [ascii "last-modified:", ascii "x-cache:", ascii "x-request-id:"]

def stripCacheTrackingHeaders (lines : List Str) : List Str :=
  withoutFields cacheTrackingFields lines

/-- The block of a tracker response without its cache fields, when it has any. -/
def cacheStrippedHeaders (headerBlock : Bytes) : Option Bytes :=
  let lines := nonEmptyLines headerBlock
  let stripped := stripCacheTrackingHeaders lines
  if stripped.length < lines.length then some (closeHeaders stripped) else none

theorem cacheStrippedHeaders_eq_some {headerBlock stripped : Bytes}
    (strips : cacheStrippedHeaders headerBlock = some stripped) :
    (stripCacheTrackingHeaders (nonEmptyLines headerBlock)).length <
        (nonEmptyLines headerBlock).length ∧
      stripped = closeHeaders (stripCacheTrackingHeaders (nonEmptyLines headerBlock)) := by
  unfold cacheStrippedHeaders at strips
  dsimp only at strips
  split at strips
  · rename_i fewer
    exact ⟨fewer, (Option.some.inj strips).symm⟩
  · cases strips

theorem closeHeaders_ne_nil (lines : List Str) : closeHeaders lines ≠ [] := by
  simp [closeHeaders, crlfcrlf]

theorem closeHeaders_eq_flatMap (lines : List Bytes) (lines_ne : lines ≠ []) :
    closeHeaders lines = lines.flatMap (· ++ crlf) ++ crlf := by
  induction lines with
  | nil => exact absurd rfl lines_ne
  | cons line lines ih =>
      cases lines with
      | nil => simp [closeHeaders, joinCrlf, joinPair, crlf, crlfcrlf]
      | cons next lines =>
          have later := ih (List.cons_ne_nil _ _)
          rw [closeHeaders, joinCrlf] at later
          rw [closeHeaders, joinCrlf, joinPair_cons line (List.cons_ne_nil _ _), List.append_assoc,
            List.cons_append, List.cons_append, later]
          simp [crlf]

end PrivacyEngine
