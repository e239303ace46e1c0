import PrivacyEngine.Io
import PrivacyEngine.Reactive
import PrivacyEngine.Policy.Engine
import PrivacyEngine.Proxy.Authority

/-!
# The plain HTTP proxy

A connection whose first bytes look like an HTTP request is read up to the end of the first head.
The request line is rewritten, a server is connected to, and from there on bytes are copied in both
directions.  Bytes of the client carry marks, of any kind, that the proxy never looks at; the
program itself is the proxy with marks that tell nothing.
-/

namespace PrivacyEngine

open Wire Reactive

/-! ## Marked bytes -/

abbrev Marked (κ : Type) := List (UInt8 × κ)

section Marks

variable {κ : Type}

def bytesOf (cells : Marked κ) : Bytes := cells.map Prod.fst

@[simp] theorem bytesOf_append (left right : Marked κ) :
    bytesOf (left ++ right) = bytesOf left ++ bytesOf right := List.map_append

@[simp] theorem length_bytesOf (cells : Marked κ) : (bytesOf cells).length = cells.length :=
  List.length_map _

@[simp] theorem bytesOf_take (count : Nat) (cells : Marked κ) :
    bytesOf (cells.take count) = (bytesOf cells).take count := List.map_take ..

def mark (index : κ) (bytes : Bytes) : Marked κ := bytes.map (·, index)

@[simp] theorem bytesOf_mark (index : κ) (bytes : Bytes) : bytesOf (mark index bytes) = bytes := by
  simp only [bytesOf, mark, List.map_map]
  exact List.map_id bytes

/-- A text made from marked bytes, with the mark of the first of them. -/
def stamp (source : Marked κ) (text : Bytes) : Marked κ :=
  match source with
  | [] => []
  | (_, index) :: _ => mark index text

end Marks

/-! ## The first head -/

def maxConnectHeaderBytes : Nat := 16 * 1024

def firstRequestLine (buf : Bytes) : Option Str :=
  (findSub crlf buf).bind fun lineEnd => fromUtf8 (buf.take lineEnd)

/-- The three pieces of `splitn(3, ' ')`, when there are three. -/
def requestParts (line : Str) : Option (Str × Str × Str) := do
  let (method, rest) ← splitOnce 32 line
  let (fullUrl, httpVersion) ← splitOnce 32 rest
  return (method, fullUrl, httpVersion)

def stripScheme (fullUrl : Str) : Option Str :=
  if (ascii "http://").isPrefixOf fullUrl then some (fullUrl.drop 7) else none

/-- Host with port, and path, of a URL behind its scheme. -/
def splitUrl (url : Str) : Str × Str :=
  match url.findIdx? (· = 47) with
  | some idx => (url.take idx, url.drop idx)
  | none => (url, ascii "/")

def targetAddr (hostPort : Str) : Str :=
  if hostPort.contains 58 then hostPort else hostPort ++ ascii ":80"

/-- Whether `TcpStream::connect` can find a server under an address: it looks for a port behind the
last colon, and a host name is handed on as a C string. -/
def connectable (address : Str) : Bool :=
  match rsplitOnce 58 address with
  | some (host, port) => !host.contains 0 && (parsePort port).isSome
  | none => false

structure ProxyRequest where
  method : Str
  hostPort : Str
  path : Str
  httpVersion : Str
  deriving DecidableEq

def ProxyRequest.rewrittenLine (request : ProxyRequest) : Str :=
  request.method ++ 32 :: request.path ++ 32 :: request.httpVersion

/-- Why a head is not forwarded: the connection fails, or a response is sent. -/
inductive HeadError where
  | fails (error : IoError)
  | sendHttpError (status message : Str)
  deriving DecidableEq

def parseHead (head : Bytes) : Except HeadError ProxyRequest :=
  match firstRequestLine head with
  | none => .error (.fails (invalidData (ascii "Malformed HTTP proxy request")))
  | some line =>
      match requestParts line with
      | none =>
          .error (.sendHttpError (ascii "400 Bad Request") (ascii "Malformed request line."))
      | some (method, fullUrl, httpVersion) =>
          match stripScheme fullUrl with
          | none =>
              .error (.sendHttpError (ascii "400 Bad Request")
                (ascii "Only absolute HTTP URLs are supported for plain HTTP proxy."))
          | some url => .ok ⟨method, (splitUrl url).1, (splitUrl url).2, httpVersion⟩

/-- The head with another request line.  The line end is looked for in the decoded head; it is the
one behind the first line, which is well-formed. -/
def rewriteHead {κ : Type} (head : Marked κ) (request : ProxyRequest) : Marked κ :=
  let headersStr := Utf8.lossy (bytesOf head)
  let firstCrlf := (findSub crlf headersStr).getD headersStr.length
  stamp head request.rewrittenLine ++ head.drop firstCrlf

/-! ## The connection -/

/-- A copy in both directions: the server, what waits for either side, how much was passed on, and
which sides have ended. -/
structure Copying (κ : Type) where
  request : ProxyRequest
  toServer : Marked κ := []
  toClient : Bytes := []
  sent : Nat := 0
  received : Nat := 0
  clientDone : Bool := false
  serverDone : Bool := false
  deriving DecidableEq

inductive ProxyState (κ : Type) where
  | readingHead (buf : Marked κ)
  | answering
  | connecting (request : ProxyRequest) (rewritten body : Marked κ)
  | sending (request : ProxyRequest) (rest : Marked κ)
  | copying (copy : Copying κ)
  deriving DecidableEq

inductive ProxyEvent (κ : Type) where
  | clientRead (chunk : Marked κ)
  | clientEof
  | clientError (error : IoError)
  | answered (outcome : Except IoError Unit)
  | connected (outcome : Except IoError Unit)
  | serverWrites (count : Nat)
  | serverRead (chunk : Bytes)
  | serverEof
  | serverError (error : IoError)
  | clientWrites (count : Nat)

/-- Log events, named after their `event` field. -/
inductive ProxyLogEvent where
  | httpProxyRequest (request : ProxyRequest) (targetAddr : Str)
  | httpProxyConnectFailed (targetAddr : Str) (error : IoError)
  | httpProxyCompleted (host : Str) (sentBytes receivedBytes : Nat)
  | httpProxyError (host : Str) (error : IoError)
  deriving DecidableEq

inductive ProxyEffect (κ : Type) where
  | connect (target : Str)
  /-- Bytes that the server connected to takes. -/
  | toServer (target : Str) (cells : Marked κ)
  | toClient (bytes : Bytes)
  | sendHttpError (status message : Str)
  | log (event : ProxyLogEvent)
  deriving DecidableEq

abbrev ProxyReaction (κ : Type) := Reaction (ProxyState κ) (ProxyEffect κ) (Except IoError Unit)

namespace HttpProxy

variable {κ : Type}

/-- What one direction of a copy holds back at most. -/
def copyBuffer : Nat := 8 * 1024

def polls (s : ProxyState κ) (event : ProxyEvent κ) : Bool :=
  match s, event with
  | .readingHead _, .clientRead chunk => !chunk.isEmpty && chunk.length ≤ 1024
  | .readingHead _, .clientEof | .readingHead _, .clientError _ => true
  | .answering, .answered _ => true
  | .connecting request _ _, .connected (.ok _) => connectable (targetAddr request.hostPort)
  | .connecting _ _ _, .connected (.error _) => true
  | .sending _ rest, .serverWrites count => 0 < count && count ≤ rest.length
  | .sending _ _, .serverError _ => true
  | .copying copy, .clientRead chunk =>
      !copy.clientDone && !chunk.isEmpty && copy.toServer.length + chunk.length ≤ copyBuffer
  | .copying copy, .clientEof => !copy.clientDone
  | .copying copy, .serverWrites count => 0 < count && count ≤ copy.toServer.length
  | .copying copy, .serverRead chunk =>
      !copy.serverDone && !chunk.isEmpty && copy.toClient.length + chunk.length ≤ copyBuffer
  | .copying copy, .serverEof => !copy.serverDone
  | .copying copy, .clientWrites count => 0 < count && count ≤ copy.toClient.length
  | .copying _, .clientError _ | .copying _, .serverError _ => true
  | _, _ => false

def onHead (head body : Marked κ) : ProxyReaction κ :=
  match parseHead (bytesOf head) with
  | .error (.fails error) => ⟨[], .halted (.error error)⟩
  | .error (.sendHttpError status message) => ⟨[.sendHttpError status message], .running .answering⟩
  | .ok request =>
      ⟨[.log (.httpProxyRequest request (targetAddr request.hostPort)),
          .connect (targetAddr request.hostPort)],
        .running (.connecting request (rewriteHead head request) body)⟩

def onHeadBytes (buf : Marked κ) : ProxyReaction κ :=
  if maxConnectHeaderBytes < buf.length then
    ⟨[], .halted (.error (invalidData (ascii "CONNECT headers exceed maximum allowed size")))⟩
  else
    match findHeadersEnd (bytesOf buf) with
    | none => ⟨[], .running (.readingHead buf)⟩
    | some headersEnd => onHead (buf.take headersEnd) (buf.drop headersEnd)

def onConnected (request : ProxyRequest) (rewritten body : Marked κ) :
    Except IoError Unit → ProxyReaction κ
  | .ok () => ⟨[], .running (.sending request (rewritten ++ body))⟩
  | .error error =>
      ⟨[.log (.httpProxyConnectFailed (targetAddr request.hostPort) error),
          .sendHttpError (ascii "502 Bad Gateway") (ascii "Failed to connect to upstream target.")],
        .running .answering⟩

/-- The copy ends when both sides have ended and nothing waits. -/
def settle (copy : Copying κ) (effects : List (ProxyEffect κ)) : ProxyReaction κ :=
  if copy.clientDone && copy.serverDone && copy.toServer.isEmpty && copy.toClient.isEmpty then
    ⟨effects ++ [.log (.httpProxyCompleted copy.request.hostPort copy.sent copy.received)],
      .halted (.ok ())⟩
  else ⟨effects, .running (.copying copy)⟩

def onCopying (copy : Copying κ) (event : ProxyEvent κ) : ProxyReaction κ :=
  match event with
  | .clientRead chunk => ⟨[], .running (.copying { copy with toServer := copy.toServer ++ chunk })⟩
  | .clientEof => settle { copy with clientDone := true } []
  | .serverWrites count =>
      settle { copy with toServer := copy.toServer.drop count, sent := copy.sent + count }
        [.toServer (targetAddr copy.request.hostPort) (copy.toServer.take count)]
  | .serverRead chunk => ⟨[], .running (.copying { copy with toClient := copy.toClient ++ chunk })⟩
  | .serverEof => settle { copy with serverDone := true } []
  | .clientWrites count =>
      settle { copy with toClient := copy.toClient.drop count, received := copy.received + count }
        [.toClient (copy.toClient.take count)]
  | .clientError error | .serverError error =>
      ⟨[.log (.httpProxyError copy.request.hostPort error)], .halted (.ok ())⟩
  | .answered _ | .connected _ => ⟨[], .running (.copying copy)⟩

def react (s : ProxyState κ) (event : ProxyEvent κ) : ProxyReaction κ :=
  match s, event with
  | .readingHead buf, .clientRead chunk => onHeadBytes (buf ++ chunk)
  | .readingHead _, .clientEof =>
      ⟨[], .halted (.error
        ⟨.unexpectedEof, ascii "Client disconnected before CONNECT headers completed"⟩)⟩
  | .readingHead _, .clientError error => ⟨[], .halted (.error error)⟩
  | .answering, .answered outcome => ⟨[], .halted outcome⟩
  | .connecting request rewritten body, .connected outcome =>
      onConnected request rewritten body outcome
  | .sending request rest, .serverWrites count =>
      ⟨[.toServer (targetAddr request.hostPort) (rest.take count)],
        .running (if count < rest.length then .sending request (rest.drop count)
          else .copying { request })⟩
  | .sending _ _, .serverError error => ⟨[], .halted (.error error)⟩
  | .copying copy, event => onCopying copy event
  | s, _ => ⟨[], .running s⟩

/-- `handle_http_proxy` on one connection. -/
def handleHttpProxy (κ : Type) : Machine (ProxyState κ) (ProxyEvent κ) (ProxyEffect κ)
    (Except IoError Unit) where
  polls := polls
  react := react

/-! ## Marks do not matter -/

variable {ι : Type} (f : κ → ι)

def relabel (cells : Marked κ) : Marked ι := cells.map (Prod.map id f)

def relabelCopy (copy : Copying κ) : Copying ι :=
  { copy with toServer := relabel f copy.toServer }

def relabelState : ProxyState κ → ProxyState ι
  | .readingHead buf => .readingHead (relabel f buf)
  | .answering => .answering
  | .connecting request rewritten body =>
      .connecting request (relabel f rewritten) (relabel f body)
  | .sending request rest => .sending request (relabel f rest)
  | .copying copy => .copying (relabelCopy f copy)

def relabelEvent : ProxyEvent κ → ProxyEvent ι
  | .clientRead chunk => .clientRead (relabel f chunk)
  | .clientEof => .clientEof
  | .clientError error => .clientError error
  | .answered outcome => .answered outcome
  | .connected outcome => .connected outcome
  | .serverWrites count => .serverWrites count
  | .serverRead chunk => .serverRead chunk
  | .serverEof => .serverEof
  | .serverError error => .serverError error
  | .clientWrites count => .clientWrites count

def relabelEffect : ProxyEffect κ → ProxyEffect ι
  | .connect target => .connect target
  | .toServer target cells => .toServer target (relabel f cells)
  | .toClient bytes => .toClient bytes
  | .sendHttpError status message => .sendHttpError status message
  | .log event => .log event

def relabelStatus : Status (ProxyState κ) (Except IoError Unit) →
    Status (ProxyState ι) (Except IoError Unit)
  | .running s => .running (relabelState f s)
  | .halted verdict => .halted verdict

def relabelReaction (reaction : ProxyReaction κ) : ProxyReaction ι :=
  ⟨reaction.outputs.map (relabelEffect f), relabelStatus f reaction.status⟩

@[simp] theorem bytesOf_relabel (cells : Marked κ) : bytesOf (relabel f cells) = bytesOf cells := by
  simp [bytesOf, relabel]

@[simp] theorem length_relabel (cells : Marked κ) : (relabel f cells).length = cells.length :=
  List.length_map _

@[simp] theorem isEmpty_relabel (cells : Marked κ) : (relabel f cells).isEmpty = cells.isEmpty := by
  cases cells <;> rfl

@[simp] theorem relabel_append (left right : Marked κ) :
    relabel f (left ++ right) = relabel f left ++ relabel f right := List.map_append

@[simp] theorem relabel_take (count : Nat) (cells : Marked κ) :
    relabel f (cells.take count) = (relabel f cells).take count := List.map_take ..

@[simp] theorem relabel_drop (count : Nat) (cells : Marked κ) :
    relabel f (cells.drop count) = (relabel f cells).drop count := List.map_drop ..

@[simp] theorem relabel_stamp (source : Marked κ) (text : Bytes) :
    relabel f (stamp source text) = stamp (relabel f source) text := by
  cases source with
  | nil => rfl
  | cons cell source => simp [stamp, mark, relabel]

theorem polls_relabel (s : ProxyState κ) (event : ProxyEvent κ) :
    polls (relabelState f s) (relabelEvent f event) = polls s event := by
  cases event with
  | connected outcome => cases s <;> cases outcome <;> rfl
  | _ => cases s <;> simp [polls, relabelState, relabelEvent, relabelCopy]

theorem onHead_relabel (head body : Marked κ) :
    onHead (relabel f head) (relabel f body) = relabelReaction f (onHead head body) := by
  unfold onHead
  rw [bytesOf_relabel]
  split
  · rfl
  · rfl
  · simp [relabelReaction, relabelStatus, relabelState, relabelEffect, rewriteHead]

theorem settle_relabel (copy : Copying κ) (effects : List (ProxyEffect κ)) :
    settle (relabelCopy f copy) (effects.map (relabelEffect f)) =
      relabelReaction f (settle copy effects) := by
  unfold settle
  simp only [relabelCopy, isEmpty_relabel]
  split <;> simp [relabelReaction, relabelStatus, relabelState, relabelEffect, relabelCopy]

theorem onHeadBytes_relabel (buf : Marked κ) :
    onHeadBytes (relabel f buf) = relabelReaction f (onHeadBytes buf) := by
  unfold onHeadBytes
  rw [length_relabel, bytesOf_relabel]
  split
  · rfl
  · split
    · rfl
    · rw [← relabel_take, ← relabel_drop, onHead_relabel]

theorem onCopying_relabel (copy : Copying κ) (event : ProxyEvent κ) :
    onCopying (relabelCopy f copy) (relabelEvent f event) =
      relabelReaction f (onCopying copy event) := by
  cases event with
  | clientRead chunk =>
      simp [onCopying, relabelEvent, relabelReaction, relabelStatus, relabelState, relabelCopy]
  | clientEof => exact settle_relabel f { copy with clientDone := true } []
  | serverEof => exact settle_relabel f { copy with serverDone := true } []
  | serverWrites count =>
      have settles := settle_relabel f
        { copy with toServer := copy.toServer.drop count, sent := copy.sent + count }
        [.toServer (targetAddr copy.request.hostPort) (copy.toServer.take count)]
      simpa [onCopying, relabelEvent, relabelCopy, relabelEffect] using settles
  | clientWrites count =>
      exact settle_relabel f
        { copy with toClient := copy.toClient.drop count, received := copy.received + count }
        [.toClient (copy.toClient.take count)]
  | _ => rfl

theorem react_relabel (s : ProxyState κ) (event : ProxyEvent κ) :
    react (relabelState f s) (relabelEvent f event) = relabelReaction f (react s event) := by
  cases s with
  | readingHead buf =>
      cases event with
      | clientRead chunk =>
          have joined := onHeadBytes_relabel f (buf ++ chunk)
          rwa [relabel_append] at joined
      | _ => rfl
  | answering => cases event <;> rfl
  | connecting request rewritten body =>
      cases event with
      | connected outcome =>
          cases outcome with
          | ok done =>
              simp [react, onConnected, relabelState, relabelEvent, relabelReaction, relabelStatus]
          | error error => rfl
      | _ => rfl
  | sending request rest =>
      cases event with
      | serverWrites count =>
          simp only [react, relabelState, relabelEvent, length_relabel, relabelReaction,
            relabelStatus]
          split <;> simp [relabelEffect, relabelCopy, relabel]
      | _ => rfl
  | copying copy =>
      have copies := onCopying_relabel f copy event
      cases event <;> exact copies

/-- A run is the same run under other marks. -/
theorem run_relabel {s : ProxyState κ} {events : List (ProxyEvent κ)}
    {effects : List (ProxyEffect κ)} {status : Status (ProxyState κ) (Except IoError Unit)}
    (execution : (handleHttpProxy κ).Run s events effects status) :
    (handleHttpProxy ι).Run (relabelState f s) (events.map (relabelEvent f))
      (effects.map (relabelEffect f)) (relabelStatus f status) := by
  induction execution with
  | stop state => exact .stop _
  | step polled reacts _ ih =>
      rw [List.map_append]
      refine .step ((polls_relabel f _ _).trans polled) ?_ ih
      exact (react_relabel f _ _).trans (congrArg (relabelReaction f) reacts)
  | halt polled reacts =>
      refine .halt ((polls_relabel f _ _).trans polled) ?_
      exact (react_relabel f _ _).trans (congrArg (relabelReaction f) reacts)

/-- Every run on bytes with other marks comes from one on the bytes as they are marked. -/
theorem exists_run_of_relabel {s : ProxyState κ} {events : List (ProxyEvent κ)}
    {effects : List (ProxyEffect ι)} {status : Status (ProxyState ι) (Except IoError Unit)}
    (execution : (handleHttpProxy ι).Run (relabelState f s) (events.map (relabelEvent f)) effects
      status) :
    ∃ marked reached, (handleHttpProxy κ).Run s events marked reached ∧
      effects = marked.map (relabelEffect f) ∧ status = relabelStatus f reached := by
  induction events generalizing s effects with
  | nil =>
      cases execution with
      | stop => exact ⟨[], _, .stop s, rfl, rfl⟩
  | cons event events ih =>
      rw [List.map_cons] at execution
      generalize later_eq : events.map (relabelEvent f) = later at execution
      rcases marks : react s event with ⟨outputs, next | verdict⟩
      · have relabelled := react_relabel f s event
        rw [marks] at relabelled
        cases execution with
        | step polled reacts rest =>
            cases (relabelled.symm.trans reacts : relabelReaction f _ = _)
            subst later_eq
            obtain ⟨marked, reached, run, rfl, rfl⟩ := ih rest
            exact ⟨_, reached, .step ((polls_relabel f _ _).symm.trans polled) marks run,
              (List.map_append ..).symm, rfl⟩
        | halt polled reacts =>
            cases (relabelled.symm.trans reacts : relabelReaction f _ = _)
      · have relabelled := react_relabel f s event
        rw [marks] at relabelled
        cases execution with
        | step polled reacts rest =>
            cases (relabelled.symm.trans reacts : relabelReaction f _ = _)
        | halt polled reacts =>
            cases (relabelled.symm.trans reacts : relabelReaction f _ = _)
            obtain rfl := List.map_eq_nil_iff.mp later_eq
            exact ⟨_, _, .halt ((polls_relabel f _ _).symm.trans polled) marks, rfl, rfl⟩

end HttpProxy

end PrivacyEngine
