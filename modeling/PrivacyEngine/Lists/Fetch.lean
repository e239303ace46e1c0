import PrivacyEngine.Lists.Response
import PrivacyEngine.Mitm.Relay

/-!
# Downloading a filter list

A download opens a connection, sends one request and reads until the server closes, within a limit;
redirections are followed a few times.  What it comes to depends on the bytes of the responses and
not on how they arrive, and the body of a list that servers redirect to is the text of the list.
-/

namespace PrivacyEngine
namespace FilterList

open Wire

def maxDownloadBytes : Nat := 32 * 1024 * 1024

def maxRedirects : Nat := 5

/-! ## Addresses -/

/-- What `hyper::Uri` finds in a text. -/
structure Uri where
  scheme : Option Str
  host : Option Str
  port : Option UInt16
  pathAndQuery : Option Str

structure ParsedUrl where
  scheme : Str
  host : Str
  port : UInt16
  pathAndQuery : Str
  deriving DecidableEq

def defaultPort (scheme : Str) : UInt16 := if scheme = ascii "https" then 443 else 80

def parseUrl (parseUri : Str → Except Str Uri) (url : Str) : Except IoError ParsedUrl := do
  let uri ← (parseUri url).mapError fun error =>
    invalidInput (ascii "invalid URL '" ++ url ++ ascii "': " ++ error)
  let scheme := toAsciiLowercase (uri.scheme.getD (ascii "http"))
  match uri.host with
  | none => .error (invalidInput (ascii "URL missing host"))
  | some host =>
      return ⟨scheme, host, uri.port.getD (defaultPort scheme), uri.pathAndQuery.getD (ascii "/")⟩

def resolveRedirect (base : ParsedUrl) (location : Str) : Except IoError Str :=
  if (ascii "http://").isPrefixOf location || (ascii "https://").isPrefixOf location then
    .ok location
  else if (ascii "/").isPrefixOf location then
    let portPart :=
      if base.port = defaultPort base.scheme then [] else 58 :: decimal base.port.toNat
    .ok (base.scheme ++ ascii "://" ++ base.host ++ portPart ++ location)
  else
    .error (invalidData (ascii "unsupported redirect location: '" ++ location ++ ascii "'"))

/-! ## One exchange -/

/-- What the streams of a connection come to: the request is written, chunks are read, and the
stream ends or fails. -/
structure HttpStream where
  write : Except IoError Unit
  reads : List ReadChunk
  ends : Except IoError Unit

/-- What one connection comes to; the handshake is only made for https. -/
structure Hop where
  connect : Except IoError Unit
  handshake : Except IoError Unit
  stream : HttpStream

inductive FetchEffect where
  | connect (host : Str) (port : UInt16)
  | request (tls : Bool) (bytes : Bytes)
  deriving DecidableEq

def getRequest (host pathAndQuery : Str) : Bytes :=
  ascii "GET " ++ pathAndQuery ++ ascii " HTTP/1.1\r\nHost: " ++ host ++
    ascii "\r\nUser-Agent: privacy-engine-rust/0.1\r\nAccept: text/plain,*/*\r\n" ++
    ascii "Accept-Encoding: identity\r\nConnection: close\r\n\r\n"

def downloadExceeded : IoError :=
  invalidData (ascii "download exceeded max bytes (" ++ decimal maxDownloadBytes ++ ascii ")")

def readLoop : List ReadChunk → Except IoError Unit → Bytes → Except IoError Bytes
  | [], ends, out => ends.map fun _ => out
  | chunk :: reads, ends, out =>
      if maxDownloadBytes < (out ++ chunk.bytes).length then .error downloadExceeded
      else readLoop reads ends (out ++ chunk.bytes)

def http1GetOverStream (stream : HttpStream) : Except IoError Bytes := do
  stream.write
  readLoop stream.reads stream.ends []

def downloadOnce (parsed : ParsedUrl) (hop : Hop) : List FetchEffect × Except Stop Downloaded :=
  let connected := FetchEffect.connect parsed.host parsed.port
  let exchange := fun tls =>
    ([connected, .request tls (getRequest parsed.host parsed.pathAndQuery)],
      (http1GetOverStream hop.stream).mapError Stop.fails >>= parseHttp1Response)
  match hop.connect with
  | .error error => ([connected], .error (.fails error))
  | .ok () =>
      if parsed.scheme = ascii "https" then
        match hop.handshake with
        | .error error => ([connected], .error (.fails error))
        | .ok () => exchange true
      else exchange false

/-! ## Redirections -/

/-- What follows from a response: the body, the next URL, or an error. -/
inductive Continuation where
  | found (body : Bytes)
  | moved (url : Str)
  | failed (stop : Stop)

def continuation (base : ParsedUrl) (downloaded : Downloaded) : Continuation :=
  let status := downloaded.statusCode.toNat
  if 200 ≤ status ∧ status < 300 then .found downloaded.body
  else if 300 ≤ status ∧ status < 400 then
    match downloaded.location with
    | none => .failed (.fails (invalidData (ascii "redirect without Location header")))
    | some location =>
        match resolveRedirect base location with
        | .ok url => .moved url
        | .error error => .failed (.fails error)
  else .failed (.fails ⟨.other, ascii "unexpected HTTP status: " ++ decimal status⟩)

section Download

variable (parseUri : Str → Except Str Uri) (hops : Nat → Hop)

/-- The attempts that are left, the number of the next one and its URL. -/
def downloadLoop : Nat → Nat → Str → List FetchEffect × Except Stop Bytes
  | 0, _, _ => ([], .error (.fails ⟨.other, ascii "too many redirects"⟩))
  | left + 1, attempt, current =>
      match parseUrl parseUri current with
      | .error error => ([], .error (.fails error))
      | .ok base =>
          match downloadOnce base (hops attempt) with
          | (effects, .error stop) => (effects, .error stop)
          | (effects, .ok downloaded) =>
              match continuation base downloaded with
              | .found body => (effects, .ok body)
              | .failed stop => (effects, .error stop)
              | .moved url =>
                  let later := downloadLoop left (attempt + 1) url
                  (effects ++ later.1, later.2)

/-- The attempts of a download. -/
def download (url : Str) : List FetchEffect × Except Stop Bytes :=
  downloadLoop parseUri hops (maxRedirects + 1) 0 url

/-- The text of a list, unless the time is up before. -/
def downloadFilterList (url : Str) (inTime : Bool) : Except Stop Str :=
  if inTime then (download parseUri hops url).2.map Utf8.lossy
  else .error (.fails ⟨.timedOut, ascii "download timed out for " ++ url⟩)

end Download

/-! ## Segmentation -/

/-- The bytes that are read. -/
def HttpStream.bytes (stream : HttpStream) : Bytes := stream.reads.flatMap ReadChunk.bytes

/-- The loop takes what is sent, as long as it stays within the limit. -/
theorem readLoop_eq (reads : List ReadChunk) (ends : Except IoError Unit) {out : Bytes}
    (within : out.length ≤ maxDownloadBytes) :
    readLoop reads ends out =
      if maxDownloadBytes < (out ++ reads.flatMap ReadChunk.bytes).length then
        .error downloadExceeded
      else ends.map fun _ => out ++ reads.flatMap ReadChunk.bytes := by
  induction reads generalizing out with
  | nil =>
      rw [List.flatMap_nil, List.append_nil, if_neg (Nat.not_lt.mpr within)]
      rfl
  | cons chunk reads ih =>
      rw [readLoop, List.flatMap_cons, ← List.append_assoc]
      by_cases exceeded : maxDownloadBytes < (out ++ chunk.bytes).length
      · have exceeded' : maxDownloadBytes <
            (out ++ chunk.bytes ++ reads.flatMap ReadChunk.bytes).length := by
          apply exceeded.trans_le
          exact (List.sublist_append_left _ _).length_le
        rw [if_pos exceeded, if_pos exceeded']
      · rw [if_neg exceeded, ih (Nat.not_lt.mp exceeded)]

theorem http1GetOverStream_eq (stream : HttpStream) :
    http1GetOverStream stream = stream.write >>= fun _ =>
      if maxDownloadBytes < stream.bytes.length then .error downloadExceeded
      else stream.ends.map fun _ => stream.bytes := by
  have loop : readLoop stream.reads stream.ends [] = _ :=
    readLoop_eq stream.reads stream.ends (Nat.zero_le _)
  rw [http1GetOverStream, loop]
  rfl

/-- Two connections differ only in how the response is cut into reads. -/
structure Hop.Alike (hop other : Hop) : Prop where
  connect : hop.connect = other.connect
  handshake : hop.handshake = other.handshake
  write : hop.stream.write = other.stream.write
  bytes : hop.stream.bytes = other.stream.bytes
  ends : hop.stream.ends = other.stream.ends

theorem downloadOnce_alike {hop other : Hop} (alike : hop.Alike other) (parsed : ParsedUrl) :
    downloadOnce parsed hop = downloadOnce parsed other := by
  have same : http1GetOverStream hop.stream = http1GetOverStream other.stream := by
    rw [http1GetOverStream_eq, http1GetOverStream_eq, alike.write, alike.bytes, alike.ends]
  rw [downloadOnce, downloadOnce, alike.connect, alike.handshake, same]

theorem downloadLoop_alike {parseUri : Str → Except Str Uri} {hops others : Nat → Hop}
    (alike : ∀ attempt, (hops attempt).Alike (others attempt)) (left attempt : Nat) (url : Str) :
    downloadLoop parseUri hops left attempt url =
      downloadLoop parseUri others left attempt url := by
  induction left generalizing attempt url with
  | zero => rfl
  | succ left ih => simp only [downloadLoop, downloadOnce_alike (alike attempt), ih]

/-! ## No panic -/

theorem http1GetOverStream_length {stream : HttpStream} {raw : Bytes}
    (reads : http1GetOverStream stream = .ok raw) : raw.length ≤ maxDownloadBytes := by
  rw [http1GetOverStream_eq, bind_eq_ok_iff] at reads
  obtain ⟨-, -, reads⟩ := reads
  split at reads
  · cases reads
  · rename_i within
    cases ended : stream.ends with
    | error error =>
        rw [ended] at reads
        cases reads
    | ok _ =>
        rw [ended] at reads
        cases reads
        exact Nat.not_lt.mp within

theorem downloadOnce_calm (parsed : ParsedUrl) (hop : Hop) : Calm (downloadOnce parsed hop).2 := by
  have exchange : Calm ((http1GetOverStream hop.stream).mapError Stop.fails >>=
      parseHttp1Response) := by
    cases reads : http1GetOverStream hop.stream with
    | error error => exact .fails error
    | ok raw =>
        apply parseHttp1Response_calm
        exact (http1GetOverStream_length reads).trans_lt (by decide)
  unfold downloadOnce
  dsimp only
  split
  · exact .fails _
  · split
    · split
      · exact .fails _
      · exact exchange
    · exact exchange

theorem continuation_calm (base : ParsedUrl) (downloaded : Downloaded) (fault : Fault) :
    continuation base downloaded ≠ .failed (.panic fault) := by
  unfold continuation
  dsimp only
  repeat' split
  all_goals exact fun panics => by cases panics

def FetchEffect.connects : FetchEffect → Bool
  | .connect .. => true
  | .request .. => false

theorem downloadOnce_connects (parsed : ParsedUrl) (hop : Hop) :
    (downloadOnce parsed hop).1.countP FetchEffect.connects = 1 := by
  unfold downloadOnce
  dsimp only
  repeat' split
  all_goals rfl

/-- Attempts connect at most as often as they may, and do not panic. -/
theorem downloadLoop_bounded (parseUri : Str → Except Str Uri) (hops : Nat → Hop)
    (left attempt : Nat) (url : Str) :
    (downloadLoop parseUri hops left attempt url).1.countP FetchEffect.connects ≤ left ∧
      Calm (downloadLoop parseUri hops left attempt url).2 := by
  induction left generalizing attempt url with
  | zero => exact ⟨le_rfl, .fails _⟩
  | succ left ih =>
      rw [downloadLoop]
      split
      · exact ⟨Nat.zero_le _, .fails _⟩
      · rename_i base parses
        have once := downloadOnce_connects base (hops attempt)
        have calm := downloadOnce_calm base (hops attempt)
        split
        · rename_i effects stop fails
          rw [fails] at once calm
          refine ⟨once.le.trans (Nat.le_add_left 1 left), fun fault panics => ?_⟩
          exact calm fault (by rw [Except.error.inj panics])
        · rename_i effects downloaded answers
          rw [answers] at once
          split
          · exact ⟨once.le.trans (Nat.le_add_left 1 left), .ok _⟩
          · rename_i stop follows
            refine ⟨once.le.trans (Nat.le_add_left 1 left), fun fault panics => ?_⟩
            apply continuation_calm base downloaded fault
            rw [follows, Except.error.inj panics]
          · rename_i next follows
            obtain ⟨few, later⟩ := ih (attempt + 1) next
            refine ⟨?_, later⟩
            rw [List.countP_append]
            exact (Nat.add_le_add once.le few).trans (Nat.add_comm 1 left).le

/-- A download does not depend on how responses are cut into reads: it makes the same connections,
sends the same requests and comes to the same result.  It connects at most six times and does not
panic. -/
theorem download_independent_of_segmentation {parseUri : Str → Except Str Uri}
    {hops others : Nat → Hop} (alike : ∀ attempt, (hops attempt).Alike (others attempt))
    (url : Str) :
    download parseUri hops url = download parseUri others url ∧
      (download parseUri hops url).1.countP FetchEffect.connects ≤ maxRedirects + 1 ∧
      Calm (download parseUri hops url).2 :=
  ⟨downloadLoop_alike alike _ _ _, downloadLoop_bounded parseUri hops _ _ _⟩

/-! ## Following redirections -/

/-- A response that names another location in a line anywhere among its header lines. -/
structure Redirection extends ListResponse where
  line : Str
  location : Str
  front : List Str
  back : List Str
  around : toListResponse.lines = front ++ back
  isLine : IsLine line
  field : fieldOf line = some (ascii "location", location)

namespace Redirection

variable (redirection : Redirection)

def head : Bytes :=
  headBytes (redirection.statusLine.bytes ::
    (redirection.front ++ redirection.line :: redirection.back))

def bytes : Bytes := redirection.head ++ redirection.framing.bytes

end Redirection

/-- A header line that does not name a location. -/
def Stays (line : Str) : Prop := ∀ value, fieldOf line ≠ some (ascii "location", value)

theorem ListResponse.stays (response : ListResponse) {line : Str} (mem : line ∈ response.lines) :
    Stays line := by
  intro value field
  rcases response.mem_lines mem with plain | framing
  · exact plain.other _ _ field (by decide)
  · cases framed : response.framing with
    | contentLength own digits body isLine field' spells =>
        rw [framed] at framing
        cases List.mem_singleton.mp framing
        exact absurd (Prod.mk.inj (Option.some.inj (field.symm.trans field'))).1 (by decide)
    | chunked own coding chunks last isLine field' named =>
        rw [framed] at framing
        cases List.mem_singleton.mp framing
        exact absurd (Prod.mk.inj (Option.some.inj (field.symm.trans field'))).1 (by decide)
    | close body =>
        rw [framed] at framing
        cases framing

theorem ResponseFields.read_location (fields : ResponseFields) (location : Option Str)
    {key : Str} (value : Str) (other : key ≠ ascii "location") :
    ({ fields with location } : ResponseFields).read key value =
      { fields.read key value with location } := by
  simp only [read, if_neg other]
  split_ifs <;> rfl

/-- Lines that do not name a location go with a location that has been found. -/
theorem readResponseLine_location {line : Str} (stays : Stays line) (fields : ResponseFields)
    (location : Option Str) :
    readResponseLine { fields with location } line =
      { readResponseLine fields line with location } := by
  rw [readResponseLine, readResponseLine]
  by_cases empty : line = []
  · rw [if_pos empty, if_pos empty]
  · rw [if_neg empty, if_neg empty]
    cases field : fieldOf line with
    | none => rfl
    | some found =>
        apply fields.read_location
        intro here
        exact stays found.2 (field.trans (by rw [← here]))

theorem foldl_readResponseLine_location {lines : List Str} (stay : ∀ line ∈ lines, Stays line)
    (fields : ResponseFields) (location : Option Str) :
    lines.foldl readResponseLine { fields with location } =
      { lines.foldl readResponseLine fields with location } := by
  induction lines generalizing fields with
  | nil => rfl
  | cons line lines ih =>
      obtain ⟨stays, stay⟩ := List.forall_mem_cons.mp stay
      rw [List.foldl_cons, List.foldl_cons, readResponseLine_location stays, ih stay]

/-- The line of the location is found wherever it stands. -/
theorem Redirection.foldl_lines (redirection : Redirection)
    (fits : redirection.framing.bytes.length < usizeBound) :
    (redirection.front ++ redirection.line :: redirection.back).foldl readResponseLine {} =
      { redirection.framing.fields with location := some redirection.location } := by
  have stay : ∀ line ∈ redirection.back, Stays line := fun line mem =>
    redirection.stays (by rw [redirection.around]; exact List.mem_append_right _ mem)
  have found : ∀ fields, readResponseLine fields redirection.line =
      { fields with location := some redirection.location } := by
    intro fields
    rw [readResponseLine, if_neg redirection.isLine.filled, redirection.field]
    rfl
  rw [List.foldl_append, List.foldl_cons, found, foldl_readResponseLine_location stay,
    ← List.foldl_append, ← redirection.around, redirection.toListResponse.foldl_lines fits]

/-- A location does not matter for the body. -/
theorem finishResponse_location (statusCode : UInt16) (fields : ResponseFields) (location : Str)
    {bodyBytes : Bytes} {downloaded : Downloaded}
    (finishes : finishResponse statusCode fields bodyBytes = .ok downloaded) :
    finishResponse statusCode { fields with location := some location } bodyBytes =
      .ok { downloaded with location := some location } := by
  have encoding : checkEncoding { fields with location := some location } =
      checkEncoding fields := rfl
  have body : responseBody { fields with location := some location } bodyBytes =
      responseBody fields bodyBytes := rfl
  rw [finishResponse, bind_eq_ok_iff] at finishes
  obtain ⟨_, encoded, finishes⟩ := finishes
  rw [bind_eq_ok_iff] at finishes
  obtain ⟨content, unframed, finishes⟩ := finishes
  obtain rfl := pure_eq_ok_iff.mp finishes
  rw [finishResponse, encoding, body, encoded, ok_bind, unframed]
  rfl

theorem Redirection.parse_bytes (redirection : Redirection) {rest : Bytes}
    (nothing : ¬ redirection.framing.Delimited → rest = [])
    (bounded : (redirection.bytes ++ rest).length < sliceBound) :
    parseHttp1Response (redirection.bytes ++ rest) =
      .ok ⟨redirection.statusLine.status, some redirection.location,
        redirection.framing.body⟩ := by
  have below : sliceBound < usizeBound := by decide
  have each : ∀ line ∈ redirection.front ++ redirection.line :: redirection.back,
      IsLine line := by
    have others : ∀ line ∈ redirection.front ++ redirection.back, IsLine line :=
      fun line mem => redirection.isLine_of_mem (redirection.around ▸ mem)
    obtain ⟨front, back⟩ := List.forall_mem_append.mp others
    exact List.forall_mem_append.mpr
      ⟨front, List.forall_mem_cons.mpr ⟨redirection.isLine, back⟩⟩
  rw [bytes, List.append_assoc] at bounded ⊢
  have framed : (redirection.framing.bytes ++ rest).length < sliceBound := by
    rw [List.length_append] at bounded
    omega
  have fits : redirection.framing.bytes.length < usizeBound := by
    rw [List.length_append] at framed
    omega
  rw [head, parseHttp1Response_head redirection.statusLine.bytes_valid
    redirection.statusLine.bytes_free each redirection.statusLine.parse_bytes _ bounded,
    redirection.foldl_lines fits]
  have unframed :=
    redirection.framing.finishResponse_bytes redirection.statusLine.status nothing framed
  exact finishResponse_location _ _ _ unframed

/-- A connection over which some bytes arrive before it is closed. -/
structure Hop.Delivers (hop : Hop) (raw : Bytes) : Prop where
  connect : hop.connect = .ok ()
  handshake : hop.handshake = .ok ()
  write : hop.stream.write = .ok ()
  ends : hop.stream.ends = .ok ()
  bytes : hop.stream.bytes = raw
  within : raw.length ≤ maxDownloadBytes

theorem Hop.Delivers.downloadOnce {hop : Hop} {raw : Bytes} (delivers : hop.Delivers raw)
    (parsed : ParsedUrl) :
    ∃ effects, FilterList.downloadOnce parsed hop = (effects, parseHttp1Response raw) := by
  have reads : http1GetOverStream hop.stream = .ok raw := by
    rw [http1GetOverStream_eq, delivers.write, ok_bind, delivers.bytes,
      if_neg (Nat.not_lt.mpr delivers.within), delivers.ends]
    rfl
  unfold FilterList.downloadOnce
  rw [delivers.connect, delivers.handshake, reads]
  dsimp only
  split
  · exact ⟨_, rfl⟩
  · exact ⟨_, rfl⟩

/-- Servers redirect from URL to URL until one of them answers with a list.  Connections are
numbered from the first attempt. -/
inductive Leads (parseUri : Str → Except Str Uri) (hops : Nat → Hop) :
    Nat → Str → List Str → Bytes → Prop
  | serves {attempt : Nat} {url : Str} {base : ParsedUrl} (response : ListResponse) {rest : Bytes}
      (parses : parseUrl parseUri url = .ok base)
      (nothing : ¬ response.framing.Delimited → rest = [])
      (delivers : (hops attempt).Delivers (response.bytes ++ rest))
      (succeeds : 200 ≤ response.statusLine.status.toNat ∧
        response.statusLine.status.toNat < 300) :
      Leads parseUri hops attempt url [] response.framing.body
  | redirects {attempt : Nat} {url next : Str} {base : ParsedUrl} (redirection : Redirection)
      {rest : Bytes} {urls : List Str} {body : Bytes}
      (parses : parseUrl parseUri url = .ok base)
      (nothing : ¬ redirection.framing.Delimited → rest = [])
      (delivers : (hops attempt).Delivers (redirection.bytes ++ rest))
      (moves : 300 ≤ redirection.statusLine.status.toNat ∧
        redirection.statusLine.status.toNat < 400)
      (resolves : resolveRedirect base redirection.location = .ok next)
      (leads : Leads parseUri hops (attempt + 1) next urls body) :
      Leads parseUri hops attempt url (next :: urls) body

theorem downloadLoop_leads {parseUri : Str → Except Str Uri} {hops : Nat → Hop} {attempt : Nat}
    {url : Str} {urls : List Str} {body : Bytes}
    (leads : Leads parseUri hops attempt url urls body) (left : Nat) :
    (downloadLoop parseUri hops left attempt url).2 =
      if urls.length < left then .ok body
      else .error (.fails ⟨.other, ascii "too many redirects"⟩) := by
  have small : maxDownloadBytes < sliceBound := by decide
  induction leads generalizing left with
  | @serves attempt url base response rest parses nothing delivers succeeds =>
      cases left with
      | zero => rfl
      | succ left =>
          have parsed := parseHttp1Response_unframes.1 response rest nothing
            (delivers.within.trans_lt small)
          obtain ⟨effects, once⟩ := delivers.downloadOnce base
          have follows : continuation base ⟨response.statusLine.status, none,
              response.framing.body⟩ = .found response.framing.body := if_pos succeeds
          simp only [downloadLoop, parses, once, parsed, follows]
          exact (if_pos (Nat.succ_pos left)).symm
  | @redirects attempt url next base redirection rest urls body parses nothing delivers moves
      resolves leads ih =>
      cases left with
      | zero => rfl
      | succ left =>
          have parsed := redirection.parse_bytes nothing (delivers.within.trans_lt small)
          obtain ⟨effects, once⟩ := delivers.downloadOnce base
          have not_found : ¬ (200 ≤ redirection.statusLine.status.toNat ∧
              redirection.statusLine.status.toNat < 300) :=
            fun found => absurd found.2 (Nat.not_lt.mpr moves.1)
          have follows : continuation base ⟨redirection.statusLine.status,
              some redirection.location, redirection.framing.body⟩ = .moved next := by
            simp only [continuation, if_neg not_found, if_pos moves, resolves]
          simp only [downloadLoop, parses, once, parsed, follows, ih left, List.length_cons,
            Nat.succ_lt_succ_iff]

def sampleMoved : Redirection where
  statusLine := {
    status := 301
    digits := ascii "301"
    reason := none
    spells := ⟨by decide, [3, 0, 1], .cons rfl (.cons rfl (.cons rfl .nil)), rfl⟩
    reason_valid := by rintro _ ⟨⟩
    reason_free := by rintro _ ⟨⟩ }
  before := []
  after := []
  framing := .contentLength (ascii "Content-Length: 0") (ascii "0") []
    ⟨by decide, by decide, by simp [ascii, PairFree]⟩ (by decide)
    ⟨by decide, [0], .cons rfl .nil, rfl⟩
  plain := by rintro _ ⟨⟩
  line := ascii "Location: /m"
  location := ascii "/m"
  front := []
  back := [ascii "Content-Length: 0"]
  around := rfl
  isLine := ⟨by decide, by decide, by simp [ascii, PairFree]⟩
  field := by decide

def sampleParseUri (url : Str) : Except Str Uri :=
  if url = ascii "http://a.example/l" then
    .ok ⟨some (ascii "http"), some (ascii "a.example"), none, some (ascii "/l")⟩
  else if url = ascii "http://a.example/m" then
    .ok ⟨some (ascii "http"), some (ascii "a.example"), none, some (ascii "/m")⟩
  else .error (ascii "invalid uri character")

def sampleHop (reads : List ReadChunk) : Hop := ⟨.ok (), .ok (), ⟨.ok (), reads, .ok ()⟩⟩

/-- The list moves, and its new address answers in two reads or in one. -/
def sampleHops (cut : Bool) (attempt : Nat) : Hop :=
  if attempt = 0 then sampleHop [⟨sampleMoved.bytes, by decide, by decide⟩]
  else if cut then
    sampleHop [⟨sampleResponse.bytes.take 40, by decide, by decide⟩,
      ⟨sampleResponse.bytes.drop 40, by decide, by decide⟩]
  else sampleHop [⟨sampleResponse.bytes, by decide, by decide⟩]

theorem sampleHops_cut :
    download sampleParseUri (sampleHops true) (ascii "http://a.example/l") =
      download sampleParseUri (sampleHops false) (ascii "http://a.example/l") := by
  have alike : ∀ attempt, (sampleHops true attempt).Alike (sampleHops false attempt) := by
    intro attempt
    unfold sampleHops
    split
    · exact ⟨rfl, rfl, rfl, rfl, rfl⟩
    · exact ⟨rfl, rfl, rfl, by decide, rfl⟩
  exact (download_independent_of_segmentation alike _).1

end FilterList
end PrivacyEngine
