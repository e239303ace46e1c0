import PrivacyEngine.Lists.Download
import PrivacyEngine.Mitm.ChunkedCodec
import PrivacyEngine.Wire.Spaceless

/-!
# Responses to the download of a filter list

The whole answer of the server is parsed once it has arrived.  A body is taken out of the framing
it was sent in exactly as it was put in, and an answer that has been cut short is an error, never a
shorter list.
-/

namespace PrivacyEngine
namespace FilterList

open Wire

/-! ## The parser -/

structure Downloaded where
  statusCode : UInt16
  location : Option Str
  body : Bytes
  deriving DecidableEq

/-- What the loop over the header lines has found. -/
structure ResponseFields where
  location : Option Str := none
  contentEncoding : Option Str := none
  transferEncodingChunked : Bool := false
  contentLength : Option Nat := none

def ResponseFields.read (fields : ResponseFields) (key value : Str) : ResponseFields :=
  if key = ascii "location" then { fields with location := some value }
  else if key = ascii "content-encoding" then
    { fields with contentEncoding := some (toAsciiLowercase value) }
  else if key = ascii "transfer-encoding" then
    if contains (toAsciiLowercase value) (ascii "chunked") then
      { fields with transferEncodingChunked := true }
    else fields
  else if key = ascii "content-length" then { fields with contentLength := fromStrRadix 10 value }
  else fields

/-- The name and the value of a header line. -/
def fieldOf (line : Str) : Option (Str × Str) :=
  (splitOnce 58 line).map fun (k, v) => (toAsciiLowercase (trim k), trim v)

/-- One turn of the loop over the header lines. -/
def readResponseLine (fields : ResponseFields) (line : Str) : ResponseFields :=
  if line = [] then fields
  else
    match fieldOf line with
    | none => fields
    | some (key, value) => fields.read key value

/-- `str::parse` for `u16`. -/
def parseU16 (text : Str) : Option UInt16 :=
  (fromStrRadix 10 text).bind fun value =>
    if value < 65536 then some (UInt16.ofNat value) else none

def parseStatusLine (statusLine : Str) : Except Stop UInt16 := do
  let word ← okOr (splitWhitespace statusLine)[1]? .invalidData "invalid status line"
  okOr (parseU16 word) .invalidData "invalid status code"

def checkEncoding (fields : ResponseFields) : Except Stop Unit :=
  match fields.contentEncoding with
  | some enc =>
      if enc ≠ ascii "identity" then
        .error (.fails (invalidData (ascii "unsupported Content-Encoding: " ++ enc)))
      else .ok ()
  | none => .ok ()

def responseBody (fields : ResponseFields) (bodyBytes : Bytes) : Except Stop Bytes :=
  if fields.transferEncodingChunked then decodeChunked bodyBytes
  else
    match fields.contentLength with
    | some cl =>
        if bodyBytes.length < cl then fail .unexpectedEof "HTTP body truncated"
        else strict (indexed (sliceTo bodyBytes cl))
    | none => .ok bodyBytes

/-- The response behind its status line and its header lines. -/
def finishResponse (statusCode : UInt16) (fields : ResponseFields) (bodyBytes : Bytes) :
    Except Stop Downloaded := do
  checkEncoding fields
  let body ← responseBody fields bodyBytes
  return ⟨statusCode, fields.location, body⟩

def parseHttp1Response (raw : Bytes) : Except Stop Downloaded := do
  let headerEnd ← okOr (findSub crlfcrlf raw) .invalidData "invalid HTTP response"
  let mid ← strict (plus headerEnd 4)
  let headerBytes ← strict (indexed (sliceTo raw mid))
  let bodyBytes ← strict (indexed (sliceFrom raw mid))
  match splitPair 13 10 (Utf8.lossy headerBytes) with
  | [] => fail .invalidData "missing status line"
  | statusLine :: lines =>
      let statusCode ← parseStatusLine statusLine
      finishResponse statusCode (lines.foldl readResponseLine {}) bodyBytes

/-! ## No panic -/

/-- A computation that does not panic. -/
def Calm {α : Type} (step : Except Stop α) : Prop := ∀ fault, step ≠ .error (.panic fault)

namespace Calm

variable {α β : Type}

theorem ok (a : α) : Calm (.ok a) := fun _ panics => by cases panics

theorem fails (error : IoError) : Calm (.error (.fails error) : Except Stop α) :=
  fun _ panics => by cases panics

theorem okOr (value : Option α) (kind : IoErrorKind) (message : String) :
    Calm (okOr value kind message) := by
  cases value with
  | none => exact fails _
  | some value => exact ok value

theorem bind {step : Except Stop α} {next : α → Except Stop β} (calm : Calm step)
    (later : ∀ a, step = .ok a → Calm (next a)) : Calm (step >>= next) := by
  cases step with
  | error stop =>
      intro fault panics
      cases panics
      exact calm fault rfl
  | ok a => exact later a rfl

end Calm

theorem decodeChunked_calm {body : Bytes} (bounded : body.length < sliceBound) :
    Calm (decodeChunked body) :=
  decodeLoop_no_panic bounded [] (Nat.zero_le _) (Nat.lt_succ_self _)

theorem responseBody_calm (fields : ResponseFields) {bodyBytes : Bytes}
    (bounded : bodyBytes.length < sliceBound) : Calm (responseBody fields bodyBytes) := by
  rw [responseBody]
  split
  · exact decodeChunked_calm bounded
  · split
    · rename_i cl given
      split
      · exact .fails _
      · rename_i enough
        rw [sliceTo_eq_some (by omega)]
        exact .ok _
    · exact .ok _

theorem finishResponse_calm (statusCode : UInt16) (fields : ResponseFields) {bodyBytes : Bytes}
    (bounded : bodyBytes.length < sliceBound) :
    Calm (finishResponse statusCode fields bodyBytes) := by
  refine .bind ?_ fun _ _ => .bind (responseBody_calm fields bounded) fun _ _ => .ok _
  rw [checkEncoding]
  split
  · split
    · exact .fails _
    · exact .ok _
  · exact .ok _

/-- The head and the body of a response are cut apart without a panic. -/
theorem parseHttp1Response_of_found {raw : Bytes} {headerEnd : Nat}
    (bounded : raw.length < sliceBound) (found : findSub crlfcrlf raw = some headerEnd) :
    parseHttp1Response raw =
      match splitPair 13 10 (Utf8.lossy (raw.take (headerEnd + 4))) with
      | [] => fail .invalidData "missing status line"
      | statusLine :: lines =>
          parseStatusLine statusLine >>= fun statusCode =>
            finishResponse statusCode (lines.foldl readResponseLine {})
              (raw.drop (headerEnd + 4)) := by
  have bound := findSub_bound crlfcrlf_ne_nil found
  rw [show crlfcrlf.length = 4 from rfl] at bound
  have mid : plus headerEnd 4 = .ok (headerEnd + 4) := plus_of_le (by omega) bounded
  rw [parseHttp1Response, found, okOr_some, ok_bind, mid, strict_ok, ok_bind,
    sliceTo_eq_some bound, sliceFrom_eq_some bound]
  rfl

theorem parseHttp1Response_calm {raw : Bytes} (bounded : raw.length < sliceBound) :
    Calm (parseHttp1Response raw) := by
  cases found : findSub crlfcrlf raw with
  | none =>
      rw [parseHttp1Response, found]
      exact .fails _
  | some headerEnd =>
      have behind : (raw.drop (headerEnd + 4)).length < sliceBound := by
        rw [List.length_drop]
        omega
      rw [parseHttp1Response_of_found bounded found]
      split
      · exact .fails _
      · refine .bind ?_ fun statusCode _ => finishResponse_calm statusCode _ behind
        exact .bind (.okOr _ _ _) fun word _ => .okOr _ _ _

/-! ## The head -/

/-- A header line as it is sent. -/
structure IsLine (line : Str) : Prop where
  filled : line ≠ []
  valid : Utf8.valid line = true
  free : PairFree 13 10 line

/-- The names that the parser looks at. -/
def readNames : List Str :=
  [ascii "location", ascii "content-encoding", ascii "transfer-encoding", ascii "content-length"]

/-- A header line with a name that the parser does not look at, or without a name. -/
structure IsPlain (line : Str) : Prop extends IsLine line where
  other : ∀ name value, fieldOf line = some (name, value) → name ∉ readNames

theorem ResponseFields.read_other (fields : ResponseFields) {key : Str} (value : Str)
    (other : key ∉ readNames) : fields.read key value = fields := by
  simp only [readNames, List.mem_cons, List.not_mem_nil, or_false, not_or] at other
  obtain ⟨no_location, no_encoding, no_transfer, no_length⟩ := other
  rw [read, if_neg no_location, if_neg no_encoding, if_neg no_transfer, if_neg no_length]

theorem readResponseLine_plain {line : Str} (plain : IsPlain line) (fields : ResponseFields) :
    readResponseLine fields line = fields := by
  rw [readResponseLine, if_neg plain.filled]
  cases field : fieldOf line with
  | none => rfl
  | some found => exact fields.read_other _ (plain.other _ _ field)

theorem foldl_readResponseLine_plain {lines : List Str} (plain : ∀ line ∈ lines, IsPlain line)
    (fields : ResponseFields) : lines.foldl readResponseLine fields = fields := by
  induction lines with
  | nil => rfl
  | cons line lines ih =>
      rw [List.foldl_cons, readResponseLine_plain (plain line List.mem_cons_self)]
      exact ih fun later mem => plain later (List.mem_cons_of_mem _ mem)

/-- The head of a response: its lines and an empty line. -/
def headBytes (lines : List Str) : Bytes := joinPair 13 10 lines ++ crlfcrlf

theorem valid_headBytes {lines : List Str} (valid : ∀ line ∈ lines, Utf8.valid line = true) :
    Utf8.lossy (headBytes lines) = headBytes lines := by
  have each : lines.map Utf8.lossy = lines :=
    (List.map_congr_left fun line mem => Utf8.lossy_of_valid (valid line mem)).trans
      (List.map_id lines)
  rw [headBytes, crlfcrlf, Utf8.lossy_append_ascii _ (by decide), Utf8.lossy_joinPair, each]
  rfl

/-- A head is parsed line by line, and what stands behind it is the body. -/
theorem parseHttp1Response_head {statusLine : Str} {lines : List Str} {statusCode : UInt16}
    (status_valid : Utf8.valid statusLine = true) (status_free : PairFree 13 10 statusLine)
    (each : ∀ line ∈ lines, IsLine line) (parses : parseStatusLine statusLine = .ok statusCode)
    (bodyBytes : Bytes)
    (bounded : (headBytes (statusLine :: lines) ++ bodyBytes).length < sliceBound) :
    parseHttp1Response (headBytes (statusLine :: lines) ++ bodyBytes) =
      finishResponse statusCode (lines.foldl readResponseLine {}) bodyBytes := by
  have free : ∀ line ∈ statusLine :: lines, PairFree 13 10 line :=
    List.forall_mem_cons.mpr ⟨status_free, fun line mem => (each line mem).free⟩
  have valid : ∀ line ∈ statusLine :: lines, Utf8.valid line = true :=
    List.forall_mem_cons.mpr ⟨status_valid, fun line mem => (each line mem).valid⟩
  have found : findSub crlfcrlf (headBytes (statusLine :: lines) ++ bodyBytes) =
      some (joinPair 13 10 (statusLine :: lines)).length :=
    findSub_crlfcrlf_joinPair (List.cons_ne_nil _ _) (fun line mem => (each line mem).filled) free
      bodyBytes
  have length_eq : (joinPair 13 10 (statusLine :: lines)).length + 4 =
      (headBytes (statusLine :: lines)).length := by
    rw [headBytes, List.length_append]
    rfl
  have pieces : splitPair 13 10 (headBytes (statusLine :: lines)) =
      statusLine :: lines ++ [[], []] :=
    splitPair_joinPair_append (by decide) (List.cons_ne_nil _ _) free [13, 10]
  rw [parseHttp1Response_of_found bounded found, length_eq, List.take_left, List.drop_left,
    valid_headBytes valid, pieces]
  change (parseStatusLine statusLine >>= fun statusCode =>
    finishResponse statusCode ((lines ++ [[], []]).foldl readResponseLine {}) bodyBytes) = _
  rw [parses, ok_bind, List.foldl_append]
  rfl

/-! ## The status line -/

/-- A status line: the status in decimal digits, and perhaps a reason. -/
structure StatusLine where
  status : UInt16
  digits : Str
  reason : Option Str
  spells : Spells 10 digits status.toNat
  reason_valid : ∀ text ∈ reason, Utf8.valid text = true
  reason_free : ∀ text ∈ reason, PairFree 13 10 text

namespace StatusLine

def bytes (line : StatusLine) : Str :=
  match line.reason with
  | some text => ascii "HTTP/1.1 " ++ (line.digits ++ 32 :: text)
  | none => ascii "HTTP/1.1 " ++ line.digits

variable (line : StatusLine)

theorem digits_solid : ∀ b ∈ line.digits, IsSolid b := fun _ mem => (line.spells.digit mem).1

theorem parseU16_digits : parseU16 line.digits = some line.status := by
  have small : line.status.toNat < 65536 := line.status.toNat_lt
  have read := line.spells.fromStrRadix (by decide)
    (small.trans (by decide : 65536 < usizeBound))
  rw [parseU16, read, Option.bind_some, if_pos small, UInt16.ofNat_toNat]

theorem parse_bytes : parseStatusLine line.bytes = .ok line.status := by
  have solid : ∀ b ∈ ascii "HTTP/1.1", 33 ≤ b ∧ b < 0x80 := by simp [ascii]
  have version : Spaceless (ascii "HTTP/1.1") := .of_solid solid
  have digits : Spaceless line.digits := .of_solid line.digits_solid
  have filled : line.digits ≠ [] := line.spells.1
  have second : (splitWhitespace line.bytes)[1]? = some line.digits := by
    rw [splitWhitespace, bytes]
    split
    · rename_i text given
      rw [show ascii "HTTP/1.1 " = ascii "HTTP/1.1" ++ [32] from rfl, List.append_assoc,
        List.singleton_append, version.splitSpaces_append, digits.splitSpaces_append]
      simp [filled, ascii]
    · rw [show ascii "HTTP/1.1 " = ascii "HTTP/1.1" ++ [32] from rfl, List.append_assoc,
        List.singleton_append, version.splitSpaces_append, digits.splitSpaces_eq]
      simp [filled, ascii]
  rw [parseStatusLine, second, okOr_some, ok_bind, parseU16_digits, okOr_some]

/-- The version and the digits are ASCII without line ends. -/
theorem front_ascii {b : UInt8} (mem : b ∈ ascii "HTTP/1.1 " ++ line.digits) :
    b < 0x80 ∧ b ≠ 13 := by
  have version : ∀ b ∈ ascii "HTTP/1.1 ", b < 0x80 ∧ b ≠ 13 := by simp [ascii]
  rcases List.mem_append.mp mem with front | digit
  · exact version b front
  · refine ⟨(line.digits_solid b digit).2, ?_⟩
    rintro rfl
    exact absurd (line.digits_solid 13 digit).1 (by decide)

theorem bytes_valid : Utf8.valid line.bytes = true := by
  have front : Utf8.valid (ascii "HTTP/1.1 " ++ line.digits) = true :=
    Utf8.lossy_eq_self_iff.mp (lossy_of_ascii fun b mem => (line.front_ascii mem).1)
  rw [bytes]
  split
  · rename_i text given
    rw [← List.append_assoc, Utf8.valid_append_ascii _ (by decide), front, Bool.true_and]
    exact line.reason_valid text given
  · exact front

theorem bytes_free : PairFree 13 10 line.bytes := by
  have front : PairFree 13 10 (ascii "HTTP/1.1 " ++ line.digits) := by
    rw [pairFree_iff]
    intro left right eq
    exact (line.front_ascii (b := 13) (by rw [eq]; simp)).2 rfl
  rw [bytes]
  split
  · rename_i text given
    rw [← List.append_assoc, pairFree_crlf_append (by decide) (by decide)]
    exact ⟨front, line.reason_free text given⟩
  · exact front

end StatusLine

/-! ## Chunked bodies -/

/-- A size line as it is sent: the size in any spelling, and any extension. -/
structure ChunkHead (size : Nat) where
  digits : Str
  extension : Option Bytes
  spells : Spells 16 digits size
  extension_free : ∀ text ∈ extension, PairFree 13 10 text

namespace ChunkHead

variable {size : Nat} (line : ChunkHead size)

def bytes : Bytes :=
  match line.extension with
  | some text => line.digits ++ 59 :: text
  | none => line.digits

theorem digits_solid : ∀ b ∈ line.digits, IsSolid b := fun _ mem => (line.spells.digit mem).1

theorem bytes_free : PairFree 13 10 line.bytes := by
  have digits : PairFree 13 10 line.digits := by
    rw [pairFree_iff]
    intro left right eq
    exact absurd (line.digits_solid 13 (by rw [eq]; simp)).1 (by decide)
  rw [bytes]
  split
  · rename_i text given
    exact (pairFree_crlf_append (by decide) (by decide) _ _).mpr
      ⟨digits, line.extension_free text given⟩
  · exact digits

/-- The size is read, whatever the extension decodes to. -/
theorem sizeText_bytes : sizeText (Utf8.lossy line.bytes) = line.digits := by
  have keeps : ∀ b ∈ line.digits, (decide (b ≠ 59)) = true := fun b mem =>
    decide_eq_true (line.spells.digit mem).2.2
  have digits : Utf8.lossy line.digits = line.digits :=
    lossy_of_ascii fun b mem => (line.digits_solid b mem).2
  have cut : (Utf8.lossy line.bytes).takeWhile (· ≠ 59) = line.digits := by
    rw [bytes]
    split
    · rename_i text given
      rw [Utf8.lossy_append_ascii _ (by decide), digits, List.takeWhile_append_of_pos keeps]
      simp
    · rw [digits]
      exact List.takeWhile_eq_self_iff.mpr keeps
  rw [sizeText, cut, trim_of_solid line.digits_solid]

/-- A size line is read wherever it stands. -/
theorem chunkTurn_bytes {body rest : Bytes} {i : Nat} (bounded : body.length < sliceBound)
    (stands : Stands body i (line.bytes ++ crlf ++ rest)) (fits : size < usizeBound) :
    chunkTurn body i =
      if size = 0 then .ok ⟨line.bytes, none⟩
      else
        chunkPayload body (i + (line.bytes ++ crlf).length) size >>= fun chunk =>
          .ok ⟨line.bytes, some chunk⟩ := by
  have in_range : i ≤ body.length := by
    have whole := stands.length_eq
    omega
  have front : body.drop i = line.bytes ++ 13 :: 10 :: rest := by
    obtain ⟨before, rfl, rfl⟩ := stands
    rw [List.drop_left, List.append_assoc]
    rfl
  have read := line.spells.fromStrRadix (by decide) fits
  rw [chunkTurn_eq bounded in_range, front, findSub_crlf_of_pairFree line.bytes_free, okOr_some,
    ok_bind, List.take_left, sizeText_bytes, read, okOr_some, ok_bind, List.length_append]
  rfl

end ChunkHead

/-- A chunk as it is sent. -/
structure ListChunk where
  data : Bytes
  nonempty : data ≠ []
  head : ChunkHead data.length

def ListChunk.bytes (chunk : ListChunk) : Bytes :=
  chunk.head.bytes ++ crlf ++ (chunk.data ++ crlf)

/-- Chunks up to the end of the last size line. -/
def chunkedBytes (chunks : List ListChunk) (last : ChunkHead 0) : Bytes :=
  chunks.flatMap ListChunk.bytes ++ (last.bytes ++ crlf)

theorem chunkedBytes_cons (chunk : ListChunk) (chunks : List ListChunk) (last : ChunkHead 0) :
    chunkedBytes (chunk :: chunks) last =
      chunk.head.bytes ++ crlf ++ (chunk.data ++ crlf ++ chunkedBytes chunks last) := by
  simp only [chunkedBytes, ListChunk.bytes, List.flatMap_cons, List.append_assoc]

theorem chunkPayload_bytes {body payload rest : Bytes} {i : Nat}
    (bounded : body.length < sliceBound)
    (stands : Stands body i (payload ++ crlf ++ rest)) :
    chunkPayload body i payload.length = .ok (payload, i + (payload ++ crlf).length) := by
  have whole := stands.length_eq
  have fits : i + (payload ++ crlf).length < usizeBound := by
    rw [List.length_append] at whole
    simp only [usizeBound, UInt64.size, sliceBound] at *
    omega
  have reads := readChunkData_bytes stands fits
  rcases chunkPayload_cases (i := i) bounded payload.length with
    ⟨error, -, nothing⟩ | ⟨chunk, cuts, read⟩
  · rw [reads] at nothing
    cases nothing
  · rw [reads] at read
    cases read
    exact cuts

/-- The loop reads the chunks one after the other and stops behind the last size line. -/
theorem decodeLoop_chunkedBytes (chunks : List ListChunk) (last : ChunkHead 0) {body rest : Bytes}
    {i fuel : Nat} (out : Bytes) (bounded : body.length < sliceBound)
    (stands : Stands body i (chunkedBytes chunks last ++ rest))
    (enough : (chunkedBytes chunks last).length < fuel) :
    decodeLoop body fuel out i = .ok (out ++ chunks.flatMap ListChunk.data) := by
  induction chunks generalizing i out fuel with
  | nil =>
      obtain ⟨fuel, rfl⟩ := Nat.exists_eq_succ_of_ne_zero (by omega : fuel ≠ 0)
      rw [decodeLoop, last.chunkTurn_bytes bounded stands (by decide), if_pos rfl, ok_bind,
        List.flatMap_nil, List.append_nil]
      rfl
  | cons chunk chunks ih =>
      obtain ⟨fuel, rfl⟩ := Nat.exists_eq_succ_of_ne_zero (by omega : fuel ≠ 0)
      rw [chunkedBytes_cons] at stands enough
      rw [List.append_assoc (chunk.head.bytes ++ crlf), List.append_assoc (chunk.data ++ crlf)]
        at stands
      have later_enough : (chunkedBytes chunks last).length < fuel := by
        simp only [List.length_append, show crlf.length = 2 from rfl] at enough
        omega
      have filled : chunk.data.length ≠ 0 := fun empty =>
        chunk.nonempty (List.length_eq_zero_iff.mp empty)
      have size_fits : chunk.data.length < usizeBound := by
        have whole := stands.length_eq
        simp only [List.length_append] at whole
        simp only [usizeBound, UInt64.size, sliceBound] at *
        omega
      rw [decodeLoop, chunk.head.chunkTurn_bytes bounded stands size_fits, if_neg filled,
        chunkPayload_bytes bounded stands.shift, ok_bind, ok_bind]
      dsimp only
      rw [ih (out ++ chunk.data) stands.shift.shift later_enough, List.flatMap_cons,
        List.append_assoc]

/-! ## Chunked bodies that are cut short -/

/-- A size line that is cut short is no line. -/
theorem findSub_of_cut_line {line part : Bytes} (free : PairFree 13 10 line)
    (cut : part <+: line ++ crlf) (short : part ≠ line ++ crlf) : findSub crlf part = none := by
  have inside : part <+: line ++ [13] := by
    have whole : line ++ crlf = line ++ [13] ++ [10] := by simp [crlf]
    rw [whole] at cut short
    rcases List.prefix_concat_iff.mp cut with same | inside
    · exact absurd same short
    · exact inside
  cases found : findSub crlf part with
  | none => rfl
  | some at_ =>
      have occurs : crlf <:+: line ++ [13] := by
        have here : crlf <:+: part :=
          (isSome_findSub_iff crlf_ne_nil).mp (by rw [found]; rfl)
        exact here.trans inside.isInfix
      obtain ⟨left, right, eq⟩ := occurs
      rcases List.eq_nil_or_concat' right with rfl | ⟨right, b, rfl⟩
      · have ends := congrArg List.getLast? eq
        simp [crlf] at ends
      · have whole : (left ++ 13 :: 10 :: right) ++ [b] = line ++ [13] := by
          rw [← eq]
          simp [crlf]
        obtain ⟨line_eq, -⟩ := List.append_inj' whole rfl
        exact absurd line_eq.symm (pairFree_iff.mp free left right)

/-- A part of a list ends inside its front or goes on behind it. -/
theorem prefix_append_cases {part front behind : Bytes} (cut : part <+: front ++ behind) :
    (part <+: front ∧ part ≠ front) ∨ ∃ rest, part = front ++ rest ∧ rest <+: behind := by
  rcases List.prefix_or_prefix_of_prefix cut (List.prefix_append front behind) with inside | longer
  · by_cases same : part = front
    · exact .inr ⟨[], by rw [same, List.append_nil], List.nil_prefix⟩
    · exact .inl ⟨inside, same⟩
  · obtain ⟨rest, rfl⟩ := longer
    exact .inr ⟨rest, rfl, (List.prefix_append_right_inj front).mp cut⟩

theorem decodeLoop_of_no_line {body part : Bytes} {i fuel : Nat} (out : Bytes)
    (bounded : body.length < sliceBound) (stands : Stands body i part)
    (nothing : findSub crlf part = none) (some_fuel : 0 < fuel) :
    ∃ error, decodeLoop body fuel out i = .error (.fails error) := by
  obtain ⟨fuel, rfl⟩ := Nat.exists_eq_succ_of_ne_zero (by omega : fuel ≠ 0)
  have in_range : i ≤ body.length := by
    have whole := stands.length_eq
    omega
  have front : body.drop i = part := by
    obtain ⟨before, rfl, rfl⟩ := stands
    exact List.drop_left
  rw [decodeLoop, chunkTurn_eq bounded in_range, front, nothing]
  exact ⟨_, rfl⟩

theorem readChunkData_next {data payload : Bytes} {pos size next : Nat}
    (reads : readChunkData data pos size = some (payload, next)) : next = pos + size + 2 := by
  simp only [readChunkData, checkedAdd, Option.bind_eq_bind, Option.bind_eq_some_iff,
    Option.ite_none_right_eq_some, Option.ite_none_left_eq_some, Option.some.injEq,
    Prod.mk.injEq] at reads
  obtain ⟨stop, ⟨-, rfl⟩, crlfEnd, ⟨-, rfl⟩, -, _, -, _, -, -, -, rfl⟩ := reads
  rfl

theorem chunkPayload_cut {body part : Bytes} {i size : Nat} (bounded : body.length < sliceBound)
    (stands : Stands body i part) (short : part.length < size + 2) :
    ∃ error, chunkPayload body i size = .error (.fails error) := by
  rcases chunkPayload_cases (i := i) bounded size with ⟨error, fails, -⟩ | ⟨chunk, -, read⟩
  · exact ⟨error, fails⟩
  · obtain ⟨payload, next⟩ := chunk
    have whole := stands.length_eq
    have next_eq := readChunkData_next read
    obtain ⟨-, next_le, -⟩ := readChunkData_spec read
    omega

/-- Chunks that end before the end of the last size line are an error. -/
theorem decodeLoop_cut (chunks : List ListChunk) (last : ChunkHead 0) {body part : Bytes}
    {i fuel : Nat} (out : Bytes) (bounded : body.length < sliceBound)
    (stands : Stands body i part) (cut : part <+: chunkedBytes chunks last)
    (short : part ≠ chunkedBytes chunks last)
    (fits : (chunkedBytes chunks last).length < usizeBound) (enough : part.length < fuel) :
    ∃ error, decodeLoop body fuel out i = .error (.fails error) := by
  induction chunks generalizing i out fuel part with
  | nil =>
      exact decodeLoop_of_no_line out bounded stands
        (findSub_of_cut_line last.bytes_free cut short) (by omega)
  | cons chunk chunks ih =>
      obtain ⟨fuel, rfl⟩ := Nat.exists_eq_succ_of_ne_zero (by omega : fuel ≠ 0)
      rw [chunkedBytes_cons] at cut short fits
      simp only [List.length_append] at fits
      rcases prefix_append_cases cut with ⟨inside, differs⟩ | ⟨behind, rfl, behind_cut⟩
      · exact decodeLoop_of_no_line out bounded stands
          (findSub_of_cut_line chunk.head.bytes_free inside differs) (Nat.succ_pos fuel)
      · have filled : chunk.data.length ≠ 0 := fun empty =>
          chunk.nonempty (List.length_eq_zero_iff.mp empty)
        have turns := chunk.head.chunkTurn_bytes bounded stands (by omega)
        have there := stands.shift
        rw [if_neg filled] at turns
        rcases prefix_append_cases behind_cut with ⟨inside, differs⟩ | ⟨rest, rfl, rest_cut⟩
        · -- the payload or its line end is missing
          have shorter : behind.length < (chunk.data ++ crlf).length :=
            inside.length_le.lt_of_ne fun same => differs (inside.eq_of_length same)
          obtain ⟨error, fails⟩ := chunkPayload_cut bounded there
            (by simpa [crlf] using shorter)
          rw [decodeLoop, turns, fails]
          exact ⟨error, rfl⟩
        · have rest_enough : rest.length < fuel := by
            simp only [List.length_append, show crlf.length = 2 from rfl] at enough
            omega
          rw [decodeLoop, turns, chunkPayload_bytes bounded there, ok_bind, ok_bind]
          refine ih (out ++ chunk.data) there.shift rest_cut (fun same => short ?_) (by omega)
            rest_enough
          rw [same]

/-! ## Responses -/

/-- How a body is framed, with the header line that says so. -/
inductive Framing where
  | contentLength (line digits : Str) (body : Bytes) (isLine : IsLine line)
      (field : fieldOf line = some (ascii "content-length", digits))
      (spells : Spells 10 digits body.length)
  | chunked (line coding : Str) (chunks : List ListChunk) (last : ChunkHead 0)
      (isLine : IsLine line) (field : fieldOf line = some (ascii "transfer-encoding", coding))
      (named : toAsciiLowercase coding = ascii "chunked")
  | close (body : Bytes)

namespace Framing

def body : Framing → Bytes
  | contentLength _ _ body _ _ _ => body
  | chunked _ _ chunks _ _ _ _ => chunks.flatMap ListChunk.data
  | close body => body

/-- The header line of a framing. -/
def lines : Framing → List Str
  | contentLength line _ _ _ _ _ => [line]
  | chunked line _ _ _ _ _ _ => [line]
  | close _ => []

/-- The framed body; chunks end with the last size line. -/
def bytes : Framing → Bytes
  | contentLength _ _ body _ _ _ => body
  | chunked _ _ chunks last _ _ _ => chunkedBytes chunks last
  | close body => body

/-- The framings that say themselves where a body ends. -/
def Delimited : Framing → Prop
  | contentLength _ _ _ _ _ _ => True
  | chunked _ _ _ _ _ _ _ => True
  | close _ => False

theorem isLine {framing : Framing} {line : Str} (mem : line ∈ framing.lines) : IsLine line := by
  cases framing with
  | contentLength _ _ _ isLine _ _ =>
      cases List.mem_singleton.mp mem
      exact isLine
  | chunked _ _ _ _ isLine _ _ =>
      cases List.mem_singleton.mp mem
      exact isLine
  | close _ => cases mem

/-- What the loop over the header lines finds. -/
def fields : Framing → ResponseFields
  | contentLength _ _ body _ _ _ => { contentLength := some body.length }
  | chunked _ _ _ _ _ _ _ => { transferEncodingChunked := true }
  | close _ => {}

theorem foldl_lines {framing : Framing} (fits : framing.bytes.length < usizeBound) :
    framing.lines.foldl readResponseLine {} = framing.fields := by
  cases framing with
  | contentLength line digits body isLine field spells =>
      have read := spells.fromStrRadix (by decide) fits
      simp only [lines, List.foldl_cons, List.foldl_nil, readResponseLine, if_neg isLine.filled,
        field, ResponseFields.read, fields, read]
      rfl
  | chunked line coding chunks last isLine field named =>
      have holds : contains (ascii "chunked") (ascii "chunked") = true := by decide
      simp only [lines, List.foldl_cons, List.foldl_nil, readResponseLine, if_neg isLine.filled,
        field, ResponseFields.read, named, holds, fields]
      rfl
  | close body => rfl

/-- The body is taken out of its framing. -/
theorem finishResponse_bytes (framing : Framing) (status : UInt16) {rest : Bytes}
    (nothing : ¬ framing.Delimited → rest = [])
    (bounded : (framing.bytes ++ rest).length < sliceBound) :
    finishResponse status framing.fields (framing.bytes ++ rest) =
      .ok ⟨status, none, framing.body⟩ := by
  cases framing with
  | contentLength line digits body isLine field spells =>
      have enough : ¬ (body ++ rest).length < body.length := by
        rw [List.length_append]
        omega
      have taken : sliceTo (body ++ rest) body.length = some body := by
        rw [sliceTo_eq_some (by omega), List.take_left]
      simp only [finishResponse, checkEncoding, responseBody, fields, bytes, ok_bind,
        Bool.false_eq_true, if_false, if_neg enough, taken]
      rfl
  | chunked line coding chunks last isLine field named =>
      have decodes : decodeChunked (chunkedBytes chunks last ++ rest) =
          .ok (chunks.flatMap ListChunk.data) := by
        refine decodeLoop_chunkedBytes chunks last [] bounded (.start _) ?_
        rw [List.length_append]
        omega
      simp only [finishResponse, checkEncoding, responseBody, fields, bytes, ok_bind, if_true,
        decodes]
      rfl
  | close body =>
      rw [nothing id, List.append_nil]
      rfl

/-- A body that ends before its framing does is an error. -/
theorem finishResponse_cut {framing : Framing} (status : UInt16) {part : Bytes}
    (delimited : framing.Delimited) (cut : part <+: framing.bytes) (short : part ≠ framing.bytes)
    (bounded : framing.bytes.length < sliceBound) :
    ∃ error, finishResponse status framing.fields part = .error (.fails error) := by
  cases framing with
  | contentLength line digits body isLine field spells =>
      have shorter : part.length < body.length :=
        cut.length_le.lt_of_ne fun same => short (cut.eq_of_length same)
      refine ⟨⟨.unexpectedEof, ascii "HTTP body truncated"⟩, ?_⟩
      simp only [finishResponse, checkEncoding, responseBody, fields, ok_bind, Bool.false_eq_true,
        if_false, if_pos shorter]
      rfl
  | chunked line coding chunks last isLine field named =>
      have bounded_part : part.length < sliceBound := cut.length_le.trans_lt bounded
      obtain ⟨error, fails⟩ : ∃ error, decodeChunked part = .error (.fails error) :=
        decodeLoop_cut chunks last [] bounded_part (.start part) cut short
          (bounded.trans (by decide : sliceBound < usizeBound)) (Nat.lt_succ_self _)
      refine ⟨error, ?_⟩
      simp only [finishResponse, checkEncoding, responseBody, fields, ok_bind, if_true, fails]
      rfl
  | close body => exact absurd delimited id

end Framing

/-- A response with any further header lines around the one of its framing. -/
structure ListResponse where
  statusLine : StatusLine
  before : List Str
  after : List Str
  framing : Framing
  plain : ∀ line ∈ before ++ after, IsPlain line

namespace ListResponse

variable (response : ListResponse)

def lines : List Str := response.before ++ response.framing.lines ++ response.after

def head : Bytes := headBytes (response.statusLine.bytes :: response.lines)

def bytes : Bytes := response.head ++ response.framing.bytes

theorem mem_lines {line : Str} (mem : line ∈ response.lines) :
    IsPlain line ∨ line ∈ response.framing.lines := by
  rcases List.mem_append.mp mem with front | after
  · rcases List.mem_append.mp front with before | framing
    · exact .inl (response.plain line (List.mem_append_left _ before))
    · exact .inr framing
  · exact .inl (response.plain line (List.mem_append_right _ after))

theorem isLine_of_mem {line : Str} (mem : line ∈ response.lines) : IsLine line := by
  rcases response.mem_lines mem with plain | framing
  · exact plain.toIsLine
  · exact Framing.isLine framing

/-- The further lines do not matter for what is found. -/
theorem foldl_lines (fits : response.framing.bytes.length < usizeBound) :
    response.lines.foldl readResponseLine {} = response.framing.fields := by
  rw [lines, List.foldl_append, List.foldl_append,
    foldl_readResponseLine_plain fun line mem => response.plain line (List.mem_append_left _ mem),
    Framing.foldl_lines fits,
    foldl_readResponseLine_plain fun line mem => response.plain line (List.mem_append_right _ mem)]

/-- Whatever stands behind its head, a response is parsed with the fields of its framing. -/
theorem parse_head {bodyBytes : Bytes} (fits : response.framing.bytes.length < usizeBound)
    (bounded : (response.head ++ bodyBytes).length < sliceBound) :
    parseHttp1Response (response.head ++ bodyBytes) =
      finishResponse response.statusLine.status response.framing.fields bodyBytes := by
  rw [head, parseHttp1Response_head response.statusLine.bytes_valid response.statusLine.bytes_free
    (fun _ mem => response.isLine_of_mem mem) response.statusLine.parse_bytes bodyBytes bounded,
    response.foldl_lines fits]

end ListResponse

/-- A response is unframed exactly, one that is cut short behind its head is an error, and no input
makes the parser panic. -/
theorem parseHttp1Response_unframes :
    (∀ (response : ListResponse) (rest : Bytes),
      (¬ response.framing.Delimited → rest = []) →
      (response.bytes ++ rest).length < sliceBound →
        parseHttp1Response (response.bytes ++ rest) =
          .ok ⟨response.statusLine.status, none, response.framing.body⟩) ∧
    (∀ (response : ListResponse) (part : Bytes),
      response.framing.Delimited → response.bytes.length < sliceBound →
      response.head <+: part → part <+: response.bytes → part ≠ response.bytes →
        ∃ error, parseHttp1Response part = .error (.fails error)) ∧
    ∀ (raw : Slice) (fault : Fault), parseHttp1Response raw.1 ≠ .error (.panic fault) := by
  have below : sliceBound < usizeBound := by decide
  refine ⟨fun response rest nothing bounded => ?_, fun response part delimited bounded starts cut
    short => ?_, fun raw => parseHttp1Response_calm raw.2⟩
  · rw [ListResponse.bytes, List.append_assoc] at bounded ⊢
    have framed : (response.framing.bytes ++ rest).length < sliceBound := by
      rw [List.length_append] at bounded
      omega
    have fits : response.framing.bytes.length < usizeBound := by
      rw [List.length_append] at framed
      omega
    rw [response.parse_head fits bounded]
    exact response.framing.finishResponse_bytes _ nothing framed
  · obtain ⟨bodyPart, rfl⟩ := starts
    have bounded_part := cut.length_le.trans_lt bounded
    have body_cut : bodyPart <+: response.framing.bytes :=
      (List.prefix_append_right_inj response.head).mp cut
    have framed : response.framing.bytes.length < sliceBound := by
      rw [ListResponse.bytes, List.length_append] at bounded
      omega
    rw [response.parse_head (framed.trans below) bounded_part]
    exact Framing.finishResponse_cut _ delimited body_cut (fun same => short (by rw [same]; rfl))
      framed

/-- A chunk with an extension behind two header lines. -/
def sampleResponse : ListResponse where
  statusLine := {
    status := 200
    digits := ascii "200"
    reason := some (ascii "OK")
    spells := ⟨by decide, [2, 0, 0], .cons rfl (.cons rfl (.cons rfl .nil)), rfl⟩
    reason_valid := by
      rintro _ ⟨⟩
      decide
    reason_free := by
      rintro _ ⟨⟩
      simp [ascii, PairFree] }
  before := [ascii "Server: x"]
  after := []
  framing := .chunked (ascii "Transfer-Encoding: chunked") (ascii "chunked")
    [{
      data := ascii "xyz"
      nonempty := by decide
      head := {
        digits := ascii "3"
        extension := some [0xFF]
        spells := ⟨by decide, [3], .cons rfl .nil, rfl⟩
        extension_free := by
          rintro _ ⟨⟩
          trivial } }]
    {
      digits := ascii "00"
      extension := none
      spells := ⟨by decide, [0, 0], .cons rfl (.cons rfl .nil), rfl⟩
      extension_free := by rintro _ ⟨⟩ }
    ⟨by decide, by decide, by simp [ascii, PairFree]⟩ (by decide) (by decide)
  plain := by
    intro line mem
    cases List.mem_singleton.mp mem
    refine ⟨⟨by decide, by decide, by simp [ascii, PairFree]⟩, fun name value field => ?_⟩
    have read : fieldOf (ascii "Server: x") = some (ascii "server", ascii "x") := by decide
    rw [read] at field
    cases field
    decide

/-- The whole response with a trailer behind it, and the response without its last byte. -/
theorem sampleResponse_unframes :
    parseHttp1Response (sampleResponse.bytes ++ ascii "A: b\r\n\r\n") =
        .ok ⟨200, none, ascii "xyz"⟩ ∧
      ∃ error, parseHttp1Response (sampleResponse.bytes.take 71) = .error (.fails error) :=
  ⟨parseHttp1Response_unframes.1 sampleResponse (ascii "A: b\r\n\r\n")
      (fun open_ended => absurd trivial open_ended) (by decide),
    parseHttp1Response_unframes.2.1 sampleResponse _ trivial (by decide)
      ⟨sampleResponse.framing.bytes.take 13, by decide⟩ (List.take_prefix _ _) (by decide)⟩

end FilterList
end PrivacyEngine
