import PrivacyEngine.Proxy.HostSeparation
import PrivacyEngine.Wire.Lines

/-!
# Requests in origin form

The proxy connects to the host of the URL and sends the request on with the path of the URL in its
line.  The URL is cut at its first slash and the port is looked for as a colon, so this fails for a
query behind the host and for an IPv6 address without port.  It also fails when the line is not
UTF-8, when head and body are more than what is read for a head, and when the port is too large to
be one, and for nothing else.
-/

namespace PrivacyEngine

open Wire Reactive

namespace HttpProxy

variable {κ : Type}

/-! ## What is written, and where -/

/-- What is written to servers, in order. -/
def written (effects : List (ProxyEffect κ)) : Bytes :=
  effects.flatMap fun
    | .toServer _ cells => bytesOf cells
    | _ => []

/-- The server that an effect is about. -/
def destination : ProxyEffect κ → Option Str
  | .connect target | .toServer target _ => some target
  | .toClient _ | .sendHttpError _ _ | .log _ => none

def OnlyTo (target : Str) (effects : List (ProxyEffect κ)) : Prop :=
  ∀ effect ∈ effects, ∀ other, destination effect = some other → other = target

theorem written_append (left right : List (ProxyEffect κ)) :
    written (left ++ right) = written left ++ written right := List.flatMap_append

theorem OnlyTo.append {target : Str} {left right : List (ProxyEffect κ)}
    (only : OnlyTo target left) (only' : OnlyTo target right) : OnlyTo target (left ++ right) := by
  intro effect mem
  rcases List.mem_append.mp mem with mem | mem
  · exact only effect mem
  · exact only' effect mem

/-- Effects that no server takes part in. -/
def Apart (effects : List (ProxyEffect κ)) : Prop := ∀ effect ∈ effects, destination effect = none

theorem Apart.onlyTo {target : Str} {effects : List (ProxyEffect κ)} (apart : Apart effects) :
    OnlyTo target effects := by
  intro effect mem other names
  rw [apart effect mem] at names
  cases names

theorem Apart.written_eq {effects : List (ProxyEffect κ)} (apart : Apart effects) :
    written effects = [] := by
  refine List.flatMap_eq_nil_iff.mpr fun effect mem => ?_
  have none := apart effect mem
  cases effect with
  | toServer target cells => cases none
  | _ => rfl

/-! ## A head that has been parsed -/

/-- The bytes of a head with another request line. -/
def rewrittenBytes (head : Bytes) (request : ProxyRequest) : Bytes :=
  request.rewrittenLine ++ head.drop
    ((findSub crlf (Utf8.lossy head)).getD (Utf8.lossy head).length)

theorem bytesOf_rewriteHead {head : Marked κ} (filled : head ≠ []) (request : ProxyRequest) :
    bytesOf (rewriteHead head request) = rewrittenBytes (bytesOf head) request := by
  have stamped (text : Bytes) : bytesOf (stamp head text) = text := by
    cases head with
    | nil => exact absurd rfl filled
    | cons cell rest => exact bytesOf_mark cell.2 text
  have dropped (count : Nat) : bytesOf (head.drop count) = (bytesOf head).drop count :=
    List.map_drop ..
  rw [rewriteHead, bytesOf_append, stamped, dropped, rewrittenBytes]

/-- A head that the proxy forwards. -/
structure Opens (head : Bytes) (request : ProxyRequest) : Prop where
  ends : findHeadersEnd head = some head.length
  parses : parseHead head = .ok request

section Forwarding

variable {head later : Bytes} {request : ProxyRequest}

/-- What is sent on of the bytes read from the client. -/
def forwarded (head : Bytes) (request : ProxyRequest) (consumed : Bytes) : Bytes :=
  rewrittenBytes head request ++ consumed.drop head.length

theorem forwarded_append {consumed : Bytes} (reached : head.length ≤ consumed.length)
    (chunk : Bytes) :
    forwarded head request (consumed ++ chunk) = forwarded head request consumed ++ chunk := by
  rw [forwarded, forwarded, List.drop_append_of_le_length reached, List.append_assoc]

/-- The head has been read and its server is connected to; some bytes still wait for it. -/
structure Underway (head : Bytes) (request : ProxyRequest) (past : List (ProxyEffect κ))
    (consumed pending : Bytes) : Prop where
  reached : head.length ≤ consumed.length
  only : OnlyTo (targetAddr request.hostPort) past
  connects : .connect (targetAddr request.hostPort) ∈ past
  conserves : written past ++ pending = forwarded head request consumed

/-- What holds of a connection that has ended or is about to end. -/
structure Settled (head : Bytes) (request : ProxyRequest) (past : List (ProxyEffect κ))
    (consumed : Bytes) : Prop where
  only : OnlyTo (targetAddr request.hostPort) past
  front : written past <+: forwarded head request consumed

/-- The proxy reads the head, talks to its server, or is about to end. -/
def Forwards (head : Bytes) (request : ProxyRequest) (past : List (ProxyEffect κ))
    (consumed : Bytes) : ProxyState κ → Prop
  | .readingHead buf => bytesOf buf = consumed ∧ past = []
  | .answering => Settled head request past consumed
  | .connecting parsed rewritten body =>
      parsed = request ∧ Underway head request past consumed (bytesOf (rewritten ++ body))
  | .sending parsed rest => parsed = request ∧ Underway head request past consumed (bytesOf rest)
  | .copying copy =>
      copy.request = request ∧ Underway head request past consumed (bytesOf copy.toServer)

/-- Nothing has been done yet. -/
theorem settled_nil (head : Bytes) (request : ProxyRequest) (consumed : Bytes) :
    Settled head request ([] : List (ProxyEffect κ)) consumed :=
  ⟨fun _ mem => absurd mem List.not_mem_nil, List.nil_prefix⟩

def Keeps (head : Bytes) (request : ProxyRequest) (past : List (ProxyEffect κ))
    (consumed : Bytes) : Status (ProxyState κ) (Except IoError Unit) → Prop
  | .running s => Forwards head request past consumed s
  | .halted _ => Settled head request past consumed

namespace Underway

variable {past effects : List (ProxyEffect κ)} {consumed pending : Bytes}

theorem settled (underway : Underway head request past consumed pending) :
    Settled head request past consumed :=
  ⟨underway.only, underway.conserves ▸ List.prefix_append _ _⟩

/-- Effects without a server change nothing. -/
theorem apart (underway : Underway head request past consumed pending) (apart : Apart effects) :
    Underway head request (past ++ effects) consumed pending where
  reached := underway.reached
  only := underway.only.append apart.onlyTo
  connects := List.mem_append_left _ underway.connects
  conserves := by
    rw [written_append, apart.written_eq, List.append_nil]
    exact underway.conserves

/-- What is written no longer waits. -/
theorem write {cells : Marked κ} {rest : Bytes}
    (underway : Underway head request past consumed pending)
    (parts : bytesOf cells ++ rest = pending) :
    Underway head request (past ++ [.toServer (targetAddr request.hostPort) cells]) consumed
      rest where
  reached := underway.reached
  only := by
    refine underway.only.append fun effect mem other names => ?_
    cases List.mem_singleton.mp mem
    exact (Option.some.inj names).symm
  connects := List.mem_append_left _ underway.connects
  conserves := by
    have one : written [ProxyEffect.toServer (targetAddr request.hostPort) cells] =
        bytesOf cells := List.flatMap_singleton ..
    rw [written_append, one, List.append_assoc, parts]
    exact underway.conserves

/-- What is read waits. -/
theorem read (underway : Underway head request past consumed pending) (chunk : Bytes) :
    Underway head request past (consumed ++ chunk) (pending ++ chunk) where
  reached := underway.reached.trans (List.length_append ▸ Nat.le_add_right _ _)
  only := underway.only
  connects := underway.connects
  conserves := by
    rw [forwarded_append underway.reached, ← underway.conserves, List.append_assoc]

end Underway

theorem Keeps.settled {past : List (ProxyEffect κ)} {consumed : Bytes}
    {status : Status (ProxyState κ) (Except IoError Unit)}
    (keeps : Keeps head request past consumed status) : Settled head request past consumed := by
  cases status with
  | halted verdict => exact keeps
  | running s =>
      cases s with
      | readingHead buf =>
          obtain ⟨-, rfl⟩ := keeps
          exact settled_nil head request consumed
      | answering => exact keeps
      | connecting parsed rewritten body => exact keeps.2.settled
      | sending parsed rest => exact keeps.2.settled
      | copying copy => exact keeps.2.settled

/-! ## Runs -/

/-- Wherever a stream that starts with a head is cut, the first head in it is that one. -/
theorem head_of_cut {buf : Bytes} (ends : findHeadersEnd head = some head.length)
    (cut : buf <+: head ++ later) {headersEnd : Nat}
    (found : findHeadersEnd buf = some headersEnd) :
    headersEnd = head.length ∧ head <+: buf := by
  obtain ⟨i, occurs, rfl⟩ := Option.map_eq_some_iff.mp found
  obtain ⟨j, occurs', j_eq⟩ := Option.map_eq_some_iff.mp ends
  obtain ⟨tail, whole⟩ := cut
  have same : some i = some j := by
    rw [← findSub_append crlfcrlf_ne_nil occurs tail, whole,
      findSub_append crlfcrlf_ne_nil occurs' later]
  obtain rfl := Option.some.inj same
  have bound : i + 4 ≤ buf.length := findSub_bound crlfcrlf_ne_nil occurs
  refine ⟨j_eq, List.prefix_of_prefix_length_le (List.prefix_append head later) ⟨tail, whole⟩ ?_⟩
  rw [← j_eq]
  exact bound

theorem Opens.head_ne_nil (opens : Opens head request) : head ≠ [] := by
  rintro rfl
  cases opens.ends

/-- A head that is complete is connected for, and what has been read behind it waits. -/
theorem onHead_of_opens (opens : Opens head request) {cells : Marked κ} {body : Bytes}
    (whole : bytesOf cells = head ++ body) :
    ∃ rewritten, onHead (cells.take head.length) (cells.drop head.length) =
        ⟨[.log (.httpProxyRequest request (targetAddr request.hostPort)),
            .connect (targetAddr request.hostPort)],
          .running (.connecting request rewritten (cells.drop head.length))⟩ ∧
      bytesOf rewritten = rewrittenBytes head request ∧
      bytesOf (cells.drop head.length) = body := by
  have front : bytesOf (cells.take head.length) = head := by
    rw [bytesOf_take, whole, List.take_left]
  have behind : bytesOf (cells.drop head.length) = body := by
    have dropped : bytesOf (cells.drop head.length) = (bytesOf cells).drop head.length :=
      List.map_drop ..
    rw [dropped, whole, List.drop_left]
  have filled : cells.take head.length ≠ [] := by
    intro empty
    rw [empty] at front
    exact opens.head_ne_nil front.symm
  refine ⟨rewriteHead (cells.take head.length) request, ?_, ?_, behind⟩
  · rw [onHead, front, opens.parses]
  · rw [bytesOf_rewriteHead filled, front]

theorem onHeadBytes_of_ends (ends : findHeadersEnd head = some head.length) {cells : Marked κ}
    {body : Bytes} (whole : bytesOf cells = head ++ body)
    (fits : cells.length ≤ maxConnectHeaderBytes) :
    onHeadBytes cells = onHead (cells.take head.length) (cells.drop head.length) := by
  obtain ⟨i, occurs, i_eq⟩ := Option.map_eq_some_iff.mp ends
  have found : findHeadersEnd (bytesOf cells) = some head.length := by
    rw [whole, findHeadersEnd, findSub_append crlfcrlf_ne_nil occurs body, ← i_eq]
    rfl
  rw [onHeadBytes, if_neg (not_lt.mpr fits), found]

theorem keeps_onHeadBytes (opens : Opens head request) {cells : Marked κ}
    (cut : bytesOf cells <+: head ++ later) :
    Keeps head request (onHeadBytes cells).outputs (bytesOf cells) (onHeadBytes cells).status := by
  by_cases long : maxConnectHeaderBytes < cells.length
  · rw [onHeadBytes, if_pos long]
    exact settled_nil head request _
  · cases found : findHeadersEnd (bytesOf cells) with
    | none =>
        rw [onHeadBytes, if_neg long, found]
        exact ⟨rfl, rfl⟩
    | some headersEnd =>
        obtain ⟨-, body, whole⟩ := head_of_cut opens.ends cut found
        obtain ⟨rewritten, reacts, rewritten_eq, body_eq⟩ := onHead_of_opens opens whole.symm
        rw [onHeadBytes_of_ends opens.ends whole.symm (not_lt.mp long), reacts]
        refine ⟨rfl, ?_, ?_, by simp, ?_⟩
        · rw [← whole, List.length_append]
          exact Nat.le_add_right _ _
        · intro effect mem other names
          rcases List.mem_cons.mp mem with rfl | mem
          · cases names
          · cases List.mem_singleton.mp mem
            exact (Option.some.inj names).symm
        · rw [bytesOf_append, rewritten_eq, body_eq, forwarded, ← whole, List.drop_left]
          rfl

variable {past : List (ProxyEffect κ)} {consumed : Bytes}

theorem keeps_settle {copy : Copying κ} {effects : List (ProxyEffect κ)}
    (asked : copy.request = request)
    (underway : Underway head request (past ++ effects) consumed (bytesOf copy.toServer)) :
    Keeps head request (past ++ (settle copy effects).outputs) consumed
      (settle copy effects).status := by
  rw [settle]
  split
  · have quiet : Apart [ProxyEffect.log (κ := κ)
        (.httpProxyCompleted copy.request.hostPort copy.sent copy.received)] := by
      simp [Apart, destination]
    have settled := (underway.apart quiet).settled
    rwa [List.append_assoc] at settled
  · exact ⟨asked, underway⟩

theorem append_unread {event : ProxyEvent κ} (unread : clientStream [event] = []) :
    consumed ++ bytesOf (clientStream [event]) = consumed := by
  rw [unread]
  exact List.append_nil consumed

theorem keeps_onCopying {copy : Copying κ} {event : ProxyEvent κ} (asked : copy.request = request)
    (underway : Underway head request past consumed (bytesOf copy.toServer)) :
    Keeps head request (past ++ (onCopying copy event).outputs)
      (consumed ++ bytesOf (clientStream [event])) (onCopying copy event).status := by
  have same : Underway head request (past ++ []) consumed (bytesOf copy.toServer) := by
    rwa [List.append_nil]
  cases event with
  | clientRead chunk =>
      have stream : clientStream [ProxyEvent.clientRead chunk] = chunk := by simp [clientStream]
      rw [stream]
      refine ⟨asked, ?_⟩
      rw [bytesOf_append]
      exact same.read (bytesOf chunk)
  | clientEof =>
      rw [append_unread rfl]
      exact keeps_settle (by exact asked) same
  | serverEof =>
      rw [append_unread rfl]
      exact keeps_settle (by exact asked) same
  | serverWrites count =>
      rw [append_unread rfl]
      refine keeps_settle (by exact asked) ?_
      rw [asked]
      refine underway.write ?_
      rw [← bytesOf_append, List.take_append_drop]
  | clientWrites count =>
      rw [append_unread rfl]
      refine keeps_settle (by exact asked) (underway.apart ?_)
      simp [Apart, destination]
  | clientError error =>
      rw [append_unread rfl]
      refine (underway.apart ?_).settled
      simp [onCopying, Apart, destination]
  | serverError error =>
      rw [append_unread rfl]
      refine (underway.apart ?_).settled
      simp [onCopying, Apart, destination]
  | serverRead chunk =>
      rw [append_unread rfl]
      exact ⟨asked, same⟩
  | answered outcome =>
      rw [append_unread rfl]
      exact ⟨asked, same⟩
  | connected outcome =>
      rw [append_unread rfl]
      exact ⟨asked, same⟩

/-- One event keeps the account of what is sent on. -/
theorem keeps_react (opens : Opens head request) {s : ProxyState κ} {event : ProxyEvent κ}
    (polled : polls s event = true) (forwards : Forwards head request past consumed s)
    (cut : consumed ++ bytesOf (clientStream [event]) <+: head ++ later) :
    Keeps head request (past ++ (react s event).outputs)
      (consumed ++ bytesOf (clientStream [event])) (react s event).status := by
  cases s with
  | readingHead buf =>
      obtain ⟨rfl, rfl⟩ := forwards
      cases event with
      | clientRead chunk =>
          have stream : clientStream [ProxyEvent.clientRead chunk] = chunk := by simp [clientStream]
          rw [stream, ← bytesOf_append] at cut ⊢
          rw [List.nil_append]
          exact keeps_onHeadBytes opens cut
      | clientEof => exact settled_nil head request _
      | clientError error => exact settled_nil head request _
      | _ => cases polled
  | answering =>
      cases event with
      | answered outcome =>
          rw [append_unread rfl]
          change Settled head request (past ++ []) consumed
          rwa [List.append_nil]
      | _ => cases polled
  | connecting parsed rewritten body =>
      obtain ⟨rfl, underway⟩ := forwards
      cases event with
      | connected outcome =>
          rw [append_unread rfl]
          cases outcome with
          | ok done =>
              refine ⟨rfl, ?_⟩
              change Underway head parsed (past ++ []) consumed _
              rwa [List.append_nil]
          | error error =>
              refine (underway.apart ?_).settled
              simp [react, onConnected, Apart, destination]
      | _ => cases polled
  | sending parsed rest =>
      obtain ⟨rfl, underway⟩ := forwards
      cases event with
      | serverWrites count =>
          rw [append_unread rfl]
          have wrote : Underway head parsed
              (past ++ [.toServer (targetAddr parsed.hostPort) (rest.take count)]) consumed
              (bytesOf (rest.drop count)) :=
            underway.write (by rw [← bytesOf_append, List.take_append_drop])
          simp only [react, Keeps]
          split
          · exact ⟨rfl, wrote⟩
          · rename_i all
            rw [List.drop_of_length_le (not_lt.mp all)] at wrote
            exact ⟨rfl, wrote⟩
      | serverError error =>
          rw [append_unread rfl]
          change Settled head parsed (past ++ []) consumed
          rw [List.append_nil]
          exact underway.settled
      | _ => cases polled
  | copying copy =>
      obtain ⟨asked, underway⟩ := forwards
      have copies : Keeps head request (past ++ (onCopying copy event).outputs)
          (consumed ++ bytesOf (clientStream [event])) (onCopying copy event).status :=
        keeps_onCopying asked underway
      cases event <;> exact copies

/-- A run over a stream that starts with the head keeps the account of what is sent on. -/
theorem keeps_run (opens : Opens head request) {s : ProxyState κ} {events : List (ProxyEvent κ)}
    {effects : List (ProxyEffect κ)} {status : Status (ProxyState κ) (Except IoError Unit)}
    (execution : (handleHttpProxy κ).Run s events effects status)
    (forwards : Forwards head request past consumed s)
    (cut : consumed ++ bytesOf (clientStream events) <+: head ++ later) :
    Keeps head request (past ++ effects) (consumed ++ bytesOf (clientStream events)) status := by
  induction execution generalizing past consumed with
  | stop state =>
      have none : consumed ++ bytesOf (clientStream ([] : List (ProxyEvent κ))) = consumed :=
        List.append_nil consumed
      rw [none, List.append_nil]
      exact forwards
  | @step state next event events outputs others status polled reacts _ ih =>
      have stream : clientStream (event :: events) =
          clientStream [event] ++ clientStream events := by simp [clientStream]
      rw [stream, bytesOf_append, ← List.append_assoc] at cut ⊢
      have step := keeps_react opens polled forwards ((List.prefix_append _ _).trans cut)
      change Keeps head request (past ++ ((handleHttpProxy κ).react state event).outputs) _
        ((handleHttpProxy κ).react state event).status at step
      rw [reacts] at step
      rw [← List.append_assoc]
      exact ih step cut
  | @halt state event outputs verdict polled reacts =>
      have step := keeps_react opens polled forwards cut
      change Keeps head request (past ++ ((handleHttpProxy κ).react state event).outputs) _
        ((handleHttpProxy κ).react state event).status at step
      rwa [reacts] at step

end Forwarding

/-! ## Requests with a URL -/

/-- The host of a URL: a name or IPv4 address, or an IPv6 address in brackets. -/
inductive UrlHost where
  | named (name : Str) (delimited : ∀ d ∈ ascii " /?:", d ∉ name)
  | bracketed (literal : Str) (colon : 58 ∈ literal) (delimited : ∀ d ∈ ascii " /?]", d ∉ literal)

def UrlHost.bytes : UrlHost → Str
  | .named name _ => name
  | .bracketed literal _ _ => 91 :: literal ++ [93]

structure UrlAuthority where
  host : UrlHost
  port : Option Str
  port_digits : ∀ digits ∈ port, digits ≠ [] ∧ ∀ b ∈ digits, 48 ≤ b ∧ b ≤ 57

namespace UrlAuthority

/-- The authority as it is written. -/
def bytes (authority : UrlAuthority) : Str :=
  match authority.port with
  | none => authority.host.bytes
  | some digits => authority.host.bytes ++ 58 :: digits

/-- Host and port that are meant: the port is 80 if there is none. -/
def address (authority : UrlAuthority) : Str :=
  authority.host.bytes ++ 58 :: authority.port.getD (ascii "80")

/-- An IPv6 address without port. -/
def BareLiteral (authority : UrlAuthority) : Prop :=
  authority.port = none ∧ 58 ∈ authority.host.bytes

theorem delimited_host (host : UrlHost) : ∀ d ∈ ascii " /?", d ∉ host.bytes := by
  intro d ends
  cases host with
  | named name delimited => exact delimited d (List.mem_append_left (ascii ":") ends)
  | bracketed literal colon delimited =>
      have brackets : ∀ d ∈ ascii " /?", d ≠ 91 ∧ d ≠ 93 := by simp [ascii]
      have inside := delimited d (List.mem_append_left (ascii "]") ends)
      simp [UrlHost.bytes, brackets d ends, inside]

theorem delimited_port {digits : Str} (decimal : ∀ b ∈ digits, 48 ≤ b ∧ b ≤ 57) :
    ∀ d ∈ ascii " /?", d ∉ 58 :: digits := by
  intro d ends mem
  have others : ∀ d ∈ ascii " /?", d ≠ 58 ∧ ¬ (48 ≤ d ∧ d ≤ 57) := by simp [ascii]
  rcases List.mem_cons.mp mem with colon | mem
  · exact (others d ends).1 colon
  · exact (others d ends).2 (decimal d mem)

theorem delimited_bytes (authority : UrlAuthority) : ∀ d ∈ ascii " /?", d ∉ authority.bytes := by
  intro d ends
  rw [bytes]
  split
  · exact delimited_host authority.host d ends
  · rename_i digits port
    exact List.not_mem_append (delimited_host authority.host d ends)
      (delimited_port (authority.port_digits digits port).2 d ends)

theorem delimited_address (authority : UrlAuthority) :
    ∀ d ∈ ascii " /?", d ∉ authority.address := by
  intro d ends
  have decimal : ∀ b ∈ authority.port.getD (ascii "80"), 48 ≤ b ∧ b ≤ 57 := by
    cases port : authority.port with
    | none => simp [ascii]
    | some digits => exact (authority.port_digits digits port).2
  exact List.not_mem_append (delimited_host authority.host d ends) (delimited_port decimal d ends)

/-- The port is looked for as a colon, which an IPv6 address has as well. -/
theorem targetAddr_bytes_iff (authority : UrlAuthority) :
    targetAddr authority.bytes = authority.address ↔ ¬ authority.BareLiteral := by
  have default_port : ascii ":80" = 58 :: ascii "80" := rfl
  rw [targetAddr, bytes, address, BareLiteral]
  cases port : authority.port with
  | none =>
      by_cases colon : 58 ∈ authority.host.bytes
      · simp [colon]
      · simp [colon, default_port]
  | some digits => simp

end UrlAuthority

/-- A request for a URL: its line, and what follows the line up to the first empty line. -/
structure UrlRequest where
  method : Str
  authority : UrlAuthority
  /-- The URL behind its authority. -/
  rest : Str
  version : Str
  fields : Bytes
  method_ends : 32 ∉ method
  rest_ends : 32 ∉ rest
  rest_starts : ∀ b ∈ rest.head?, b = 47 ∨ b = 63
  line_ends : findSub crlf (absoluteLine method authority.bytes rest version ++ fields) =
    some (absoluteLine method authority.bytes rest version).length
  head_ends : findHeadersEnd (absoluteLine method authority.bytes rest version ++ fields) =
    some (absoluteLine method authority.bytes rest version ++ fields).length

namespace UrlRequest

variable (request : UrlRequest)

def line : Str :=
  absoluteLine request.method request.authority.bytes request.rest request.version

def head : Bytes := request.line ++ request.fields

/-- The path that a server is asked for. -/
def path : Str := if request.rest.head? = some 47 then request.rest else 47 :: request.rest

/-- The head in origin form. -/
def originHead : Bytes :=
  request.method ++ 32 :: request.path ++ 32 :: request.version ++ request.fields

/-- The request that the proxy reads. -/
def parsed : ProxyRequest :=
  ⟨request.method, (splitUrl (request.authority.bytes ++ request.rest)).1,
    (splitUrl (request.authority.bytes ++ request.rest)).2, request.version⟩

theorem head_closed : findHeadersEnd request.head = some request.head.length := request.head_ends

theorem opens (valid : Utf8.valid request.line = true) : Opens request.head request.parsed where
  ends := request.head_closed
  parses := parseHead_absoluteLine request.method_ends
    (request.authority.delimited_bytes 32 (by decide)) request.rest_ends valid request.line_ends

/-- The line end that is found in the decoded head is that of the line. -/
theorem rewrittenBytes_head (valid : Utf8.valid request.line = true) :
    rewrittenBytes request.head request.parsed =
      request.parsed.rewrittenLine ++ request.fields := by
  obtain ⟨occurs, first⟩ := (findSub_eq_some_iff (by decide)).mp request.line_ends
  rw [List.drop_left] at occurs
  obtain ⟨behind, fields_eq⟩ := occurs
  have free : PairFree 13 10 request.line := by
    refine pairFree_iff.mpr fun left right line_eq => ?_
    have early : left.length < request.line.length := by
      rw [line_eq]
      simp
    refine first left.length early ⟨right ++ request.fields, ?_⟩
    change _ = List.drop left.length (request.line ++ request.fields)
    rw [line_eq, List.append_assoc, List.drop_left]
    rfl
  have decoded : Utf8.lossy request.head =
      request.line ++ 13 :: 10 :: Utf8.lossy behind := by
    have cr : (13 : UInt8) < 0x80 := by decide
    have lf : (10 : UInt8) < 0x80 := by decide
    rw [head, ← fields_eq]
    change Utf8.lossy (request.line ++ 13 :: 10 :: behind) = _
    rw [Utf8.lossy_append_ascii request.line cr, Utf8.lossy_cons_ascii lf,
      show Utf8.lossy request.line = request.line from Utf8.lossy_of_valid valid]
  rw [rewrittenBytes, decoded, findSub_crlf_of_pairFree free, Option.getD_some, head,
    List.drop_left]

/-- Without a query behind the authority, the URL is cut where the authority ends. -/
theorem splitUrl_path (no_query : request.rest.head? ≠ some 63) :
    splitUrl (request.authority.bytes ++ request.rest) =
      (request.authority.bytes, request.path) := by
  have rooted : ∀ b ∈ request.rest.head?, b = 47 := by
    intro b starts
    rcases request.rest_starts b starts with slash | query
    · exact slash
    · exact absurd (starts.trans (congrArg some query)) no_query
  rw [splitUrl_rooted (request.authority.delimited_bytes 47 (by decide)) rooted, path]
  cases rest : request.rest with
  | nil => rfl
  | cons b behind =>
      rw [rest] at rooted
      rw [rooted b rfl]
      rfl

/-- A query behind the authority stays with it, up to a slash in the query. -/
theorem query_mem_splitUrl (query : request.rest.head? = some 63) :
    63 ∈ (splitUrl (request.authority.bytes ++ request.rest)).1 := by
  obtain ⟨behind, rest⟩ := List.head?_eq_some_iff.mp query
  have unfound : request.authority.bytes.findIdx? (· = 47) = none := by
    refine List.findIdx?_eq_none_iff.mpr fun b mem => decide_eq_false fun slash => ?_
    exact request.authority.delimited_bytes 47 (by decide) (slash ▸ mem)
  rw [splitUrl, rest, List.findIdx?_append, unfound, List.findIdx?_cons]
  cases behind.findIdx? (· = 47) with
  | none => simp
  | some i => simp [List.take_append]

/-- The address that the proxy connects to is that of the URL exactly in these cases. -/
theorem targetAddr_parsed_iff :
    targetAddr request.parsed.hostPort = request.authority.address ↔
      request.rest.head? ≠ some 63 ∧ ¬ request.authority.BareLiteral := by
  by_cases query : request.rest.head? = some 63
  · refine ⟨fun same => ?_, fun cause => absurd query cause.1⟩
    have inside : 63 ∈ targetAddr request.parsed.hostPort := by
      have host := request.query_mem_splitUrl query
      rw [targetAddr]
      split
      · exact host
      · exact List.mem_append_left _ host
    rw [same] at inside
    exact absurd inside (request.authority.delimited_address 63 (by decide))
  · have host : request.parsed.hostPort = request.authority.bytes :=
      congrArg Prod.fst (request.splitUrl_path query)
    rw [host, request.authority.targetAddr_bytes_iff]
    exact ⟨fun port => ⟨query, port⟩, And.right⟩

end UrlRequest

/-! ## Conversion to origin form -/

/-- The proxy reads the rest of the head of a request and, with it, the start of a body. -/
structure HeadRead (request : UrlRequest) (buf chunk : Marked Unit) (body : Bytes) : Prop where
  polled : polls (.readingHead buf) (.clientRead chunk) = true
  whole : bytesOf (buf ++ chunk) = request.head ++ body

/-- Head and body that have been read are within the limit for heads, and the line is UTF-8. -/
structure Readable (request : UrlRequest) (body : Bytes) : Prop where
  fits : (request.head ++ body).length ≤ maxConnectHeaderBytes
  valid : Utf8.valid request.line = true

/-- A run from the event that completes the head. -/
abbrev RunFrom (buf chunk : Marked Unit) (events : List (ProxyEvent Unit))
    (effects : List (ProxyEffect Unit))
    (status : Status (ProxyState Unit) (Except IoError Unit)) : Prop :=
  (handleHttpProxy Unit).Run (.readingHead buf) (.clientRead chunk :: events) effects status

/-- The request is sent on in origin form, with its body and what follows, to the server of its
URL. -/
structure Converts (request : UrlRequest) (buf chunk : Marked Unit) (body : Bytes) : Prop where
  connects : ∃ logged parsed rewritten behind,
    react (.readingHead buf) (.clientRead chunk) =
        ⟨[.log logged, .connect request.authority.address],
          .running (.connecting parsed rewritten behind)⟩ ∧
      bytesOf rewritten = request.originHead ∧ bytesOf behind = body
  only : ∀ events effects status, RunFrom buf chunk events effects status →
    OnlyTo request.authority.address effects
  writes : ∀ events effects status, RunFrom buf chunk events effects status →
    written effects <+: request.originHead ++ (body ++ bytesOf (clientStream events))
  keeps : ∀ events effects copy, RunFrom buf chunk events effects (.running (.copying copy)) →
    written effects ++ bytesOf copy.toServer =
      request.originHead ++ (body ++ bytesOf (clientStream events))
  /-- A server that accepts the connection and takes what it is offered gets all of it. -/
  completes : ∃ events effects copy,
    RunFrom buf chunk events effects (.running (.copying copy)) ∧
      clientStream events = [] ∧ written effects = request.originHead ++ body

/-- A connection that comes to be copied has been made, to an address that has a port. -/
theorem connectable_of_run {request : ProxyRequest} {rewritten body : Marked κ}
    {events : List (ProxyEvent κ)} {effects : List (ProxyEffect κ)} {copy : Copying κ}
    (execution : (handleHttpProxy κ).Run (.connecting request rewritten body) events effects
      (.running (.copying copy))) : connectable (targetAddr request.hostPort) = true := by
  cases execution with
  | @step _ next event events outputs later _ polled reacts rest =>
      cases event with
      | connected outcome =>
          cases outcome with
          | ok done => exact polled
          | error error =>
              -- the failure is answered, and with the answer the connection ends
              obtain ⟨-, answers⟩ := Reaction.mk.inj reacts
              obtain rfl := Status.running.inj answers
              cases rest with
              | @step _ next event events outputs later _ polled reacts _ =>
                  cases event with
                  | answered outcome => cases reacts
                  | _ => cases polled
      | _ => cases polled

namespace HeadRead

variable {request : UrlRequest} {buf chunk : Marked Unit} {body : Bytes}

/-- Only what is readable goes on. -/
theorem readable_of_running (read : HeadRead request buf chunk body)
    {effects : List (ProxyEffect Unit)} {request' : ProxyRequest} {rewritten behind : Marked Unit}
    (reacts : react (.readingHead buf) (.clientRead chunk) =
      ⟨effects, .running (.connecting request' rewritten behind)⟩) : Readable request body := by
  change onHeadBytes (buf ++ chunk) = _ at reacts
  have length_eq : (buf ++ chunk).length = (request.head ++ body).length := by
    rw [← read.whole, length_bytesOf]
  by_cases fits : (buf ++ chunk).length ≤ maxConnectHeaderBytes
  · refine ⟨length_eq ▸ fits, ?_⟩
    by_contra invalid
    rw [Bool.not_eq_true] at invalid
    have front : bytesOf ((buf ++ chunk).take request.head.length) = request.head := by
      rw [bytesOf_take, read.whole, List.take_left]
    have refused : parseHead request.head = _ := parseHead_of_invalid invalid request.line_ends
    rw [onHeadBytes_of_ends request.head_closed read.whole fits, onHead, front, refused] at reacts
    cases reacts
  · rw [onHeadBytes, if_pos (not_le.mp fits)] at reacts
    cases reacts

/-- The proxy connects for what it has parsed. -/
theorem reacts (read : HeadRead request buf chunk body) (readable : Readable request body) :
    ∃ rewritten behind, react (.readingHead buf) (.clientRead chunk) =
        ⟨[.log (.httpProxyRequest request.parsed (targetAddr request.parsed.hostPort)),
            .connect (targetAddr request.parsed.hostPort)],
          .running (.connecting request.parsed rewritten behind)⟩ ∧
      bytesOf rewritten = rewrittenBytes request.head request.parsed ∧ bytesOf behind = body := by
  obtain ⟨rewritten, reacts, rewritten_eq, behind_eq⟩ :=
    onHead_of_opens (request.opens readable.valid) read.whole
  refine ⟨rewritten, _, ?_, rewritten_eq, behind_eq⟩
  change onHeadBytes (buf ++ chunk) = _
  have fits : (buf ++ chunk).length ≤ maxConnectHeaderBytes := by
    rw [← length_bytesOf, read.whole]
    exact readable.fits
  rw [onHeadBytes_of_ends request.head_closed read.whole fits, reacts]

theorem keeps (read : HeadRead request buf chunk body) (readable : Readable request body)
    {events : List (ProxyEvent Unit)}
    {effects : List (ProxyEffect Unit)} {status : Status (ProxyState Unit) (Except IoError Unit)}
    (execution : RunFrom buf chunk events effects status) :
    Keeps request.head request.parsed effects
      (request.head ++ (body ++ bytesOf (clientStream events))) status := by
  have stream : bytesOf buf ++ bytesOf (clientStream (.clientRead chunk :: events)) =
      request.head ++ (body ++ bytesOf (clientStream events)) := by
    rw [← List.append_assoc, ← read.whole]
    simp [clientStream]
  have cut : bytesOf buf ++ bytesOf (clientStream (.clientRead chunk :: events)) <+:
      request.head ++ (body ++ bytesOf (clientStream events)) := by
    rw [stream]
  have start : Forwards request.head request.parsed [] (bytesOf buf) (.readingHead buf) :=
    ⟨rfl, rfl⟩
  have keeps := keeps_run (request.opens readable.valid) execution start cut
  rwa [stream] at keeps

/-- A request is converted only if it can be read and the address of its URL is the one that is
found. -/
theorem targetAddr_of_converts (read : HeadRead request buf chunk body)
    (converts : Converts request buf chunk body) :
    Readable request body ∧ targetAddr request.parsed.hostPort = request.authority.address := by
  obtain ⟨logged, parsed, rewritten, behind, reacts, -⟩ := converts.connects
  have readable := read.readable_of_running reacts
  obtain ⟨rewritten', behind', reacts', -⟩ := read.reacts readable
  have same := congrArg Reaction.outputs (reacts'.symm.trans reacts)
  simp only [List.cons.injEq, ProxyEffect.connect.injEq, and_true] at same
  exact ⟨readable, same.2⟩

/-- Bytes are copied only when a server has been connected to. -/
theorem connectable_of_copying (read : HeadRead request buf chunk body)
    (readable : Readable request body) {events : List (ProxyEvent Unit)}
    {effects : List (ProxyEffect Unit)} {copy : Copying Unit}
    (execution : RunFrom buf chunk events effects (.running (.copying copy))) :
    connectable (targetAddr request.parsed.hostPort) = true := by
  obtain ⟨rewritten, behind, reacts, -⟩ := read.reacts readable
  cases execution with
  | step polled reacts' rest =>
      obtain ⟨-, goes_on⟩ := Reaction.mk.inj (reacts.symm.trans reacts')
      obtain rfl := Status.running.inj goes_on
      exact connectable_of_run rest

theorem exists_run (read : HeadRead request buf chunk body) (readable : Readable request body)
    (reachable : connectable (targetAddr request.parsed.hostPort) = true) :
    ∃ events effects copy, RunFrom buf chunk events effects (.running (.copying copy)) ∧
      clientStream events = [] ∧
      written effects = rewrittenBytes request.head request.parsed ++ body := by
  obtain ⟨rewritten, behind, reads, rewritten_eq, rfl⟩ := read.reacts readable
  have filled : rewritten ++ behind ≠ [] := by
    intro empty
    have nothing := congrArg bytesOf (List.append_eq_nil_iff.mp empty).1
    rw [rewritten_eq, request.rewrittenBytes_head readable.valid] at nothing
    simp [bytesOf, ProxyRequest.rewrittenLine] at nothing
  refine ⟨_, _, _, .step read.polled reads (run_connecting reachable filled), rfl, ?_⟩
  rw [← rewritten_eq, ← bytesOf_append]
  exact List.append_nil _

end HeadRead

/-- Once the head of a request has been read, the request is converted exactly if head and body are
within the limit, the line is UTF-8, the address is one that can be connected to, no query follows
the authority at once, and the authority is not an IPv6 address without port. -/
theorem converts_iff {request : UrlRequest} {buf chunk : Marked Unit} {body : Bytes}
    (read : HeadRead request buf chunk body) :
    Converts request buf chunk body ↔
      Readable request body ∧ connectable request.authority.address = true ∧
        request.rest.head? ≠ some 63 ∧ ¬ request.authority.BareLiteral := by
  rw [← request.targetAddr_parsed_iff]
  constructor
  · intro converts
    obtain ⟨readable, address⟩ := read.targetAddr_of_converts converts
    obtain ⟨events, effects, copy, execution, -⟩ := converts.completes
    exact ⟨readable, address ▸ read.connectable_of_copying readable execution, address⟩
  rintro ⟨readable, reachable, address⟩
  have no_query := (request.targetAddr_parsed_iff.mp address).1
  have origin : rewrittenBytes request.head request.parsed = request.originHead := by
    rw [request.rewrittenBytes_head readable.valid, ProxyRequest.rewrittenLine, UrlRequest.parsed,
      request.splitUrl_path no_query]
    rfl
  have sent (stream : Bytes) : forwarded request.head request.parsed
      (request.head ++ stream) = request.originHead ++ stream := by
    rw [forwarded, origin, List.drop_left]
  obtain ⟨rewritten, behind, reacts, rewritten_eq, behind_eq⟩ := read.reacts readable
  exact {
    connects := ⟨_, _, rewritten, behind, address ▸ reacts, rewritten_eq.trans origin, behind_eq⟩
    only := fun events effects status execution =>
      address ▸ (read.keeps readable execution).settled.only
    writes := fun events effects status execution =>
      sent _ ▸ (read.keeps readable execution).settled.front
    keeps := fun events effects copy execution => by
      obtain ⟨-, underway⟩ := read.keeps readable execution
      rw [← sent]
      exact underway.conserves
    completes := origin ▸ read.exists_run readable (address ▸ reachable) }

/-! ### URLs with a port, a query and an IPv6 address -/

/-- `POST http://a.example:8080/x?y=/ HTTP/1.1` with a field that is not UTF-8. -/
def portRequest : UrlRequest where
  method := ascii "POST"
  authority := ⟨.named (ascii "a.example") (by simp [ascii]), some (ascii "8080"), by simp [ascii]⟩
  rest := ascii "/x?y=/"
  version := ascii "HTTP/1.1"
  fields := crlf ++ ascii "x: " ++ 255 :: crlfcrlf
  method_ends := by decide
  rest_ends := by decide
  rest_starts := by simp [ascii]
  line_ends := by decide +kernel
  head_ends := by decide +kernel

/-- `HEAD http://a.example?x=/ HTTP/1.1` and no fields. -/
def queryRequest : UrlRequest where
  method := ascii "HEAD"
  authority := ⟨.named (ascii "a.example") (by simp [ascii]), none, by simp⟩
  rest := ascii "?x=/"
  version := ascii "HTTP/1.1"
  fields := crlfcrlf
  method_ends := by decide
  rest_ends := by decide
  rest_starts := by simp [ascii]
  line_ends := by decide +kernel
  head_ends := by decide +kernel

/-- `HEAD http://[::1]/x HTTP/1.1` and no fields. -/
def literalRequest : UrlRequest where
  method := ascii "HEAD"
  authority := ⟨.bracketed (ascii "::1") (by decide) (by simp [ascii]), none, by simp⟩
  rest := ascii "/x"
  version := ascii "HTTP/1.1"
  fields := crlfcrlf
  method_ends := by decide
  rest_ends := by decide
  rest_starts := by simp [ascii]
  line_ends := by decide +kernel
  head_ends := by decide +kernel

/-- The request with a port is read together with a body and converted. -/
theorem converts_portRequest :
    Converts portRequest [] (mark () (portRequest.head ++ ascii "body")) (ascii "body") := by
  have read : HeadRead portRequest [] (mark () (portRequest.head ++ ascii "body")) (ascii "body") :=
    ⟨by decide, by decide⟩
  refine (converts_iff read).mpr
    ⟨⟨by decide, by decide +kernel⟩, by decide +kernel, by decide, ?_⟩
  rintro ⟨portless, -⟩
  cases portless

/-- The proxy connects to `a.example?x=:80` and to `[::1]`. -/
theorem not_converts_queryRequest :
    (HeadRead queryRequest [] (mark () queryRequest.head) [] ∧
        ¬ Converts queryRequest [] (mark () queryRequest.head) []) ∧
      HeadRead literalRequest [] (mark () literalRequest.head) [] ∧
        ¬ Converts literalRequest [] (mark () literalRequest.head) [] := by
  have read : HeadRead queryRequest [] (mark () queryRequest.head) [] :=
    ⟨by decide, by decide⟩
  have read' : HeadRead literalRequest [] (mark () literalRequest.head) [] :=
    ⟨by decide, by decide⟩
  refine ⟨⟨read, fun converts => ?_⟩, read', fun converts => ?_⟩
  · have elsewhere := (read.targetAddr_of_converts converts).2
    revert elsewhere
    decide
  · have elsewhere := (read'.targetAddr_of_converts converts).2
    revert elsewhere
    decide

end HttpProxy
end PrivacyEngine
