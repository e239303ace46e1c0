import PrivacyEngine.Proxy.HttpProxy

/-!
# Requests of one proxy connection

Clients send several requests on one connection, to any hosts.  The proxy connects to the host of
the first one and copies everything behind it, so bytes of a later request go where the first one
went.
-/

namespace PrivacyEngine

open Wire Reactive

/-! ## Requests in absolute form -/

/-- The request line of a request to a proxy. -/
def absoluteLine (method authority path version : Str) : Str :=
  method ++ 32 :: (ascii "http://" ++ authority ++ path) ++ 32 :: version

/-- The proxy reads the parts of a line in absolute form, and cuts its URL. -/
theorem parseHead_absoluteLine {method authority path version : Str} {fields : Bytes}
    (method_ends : 32 ∉ method) (authority_ends : 32 ∉ authority) (path_ends : 32 ∉ path)
    (line_valid : Utf8.valid (absoluteLine method authority path version) = true)
    (line_ends : findSub crlf (absoluteLine method authority path version ++ fields) =
      some (absoluteLine method authority path version).length) :
    parseHead (absoluteLine method authority path version ++ fields) =
      .ok ⟨method, (splitUrl (authority ++ path)).1, (splitUrl (authority ++ path)).2,
        version⟩ := by
  have line : firstRequestLine (absoluteLine method authority path version ++ fields) =
      some (absoluteLine method authority path version) := by
    simp [firstRequestLine, line_ends, fromUtf8, line_valid]
  have url_ends : 32 ∉ ascii "http://" ++ authority ++ path := by
    have scheme : 32 ∉ ascii "http://" := by decide
    simp [scheme, authority_ends, path_ends]
  have first := splitOnce_eq_some_iff.mpr
    ⟨show absoluteLine method authority path version =
      method ++ 32 :: ((ascii "http://" ++ authority ++ path) ++ 32 :: version) by
        simp [absoluteLine], method_ends⟩
  have second := splitOnce_eq_some_iff.mpr
    ⟨(rfl : (ascii "http://" ++ authority ++ path) ++ 32 :: version = _), url_ends⟩
  have parts : requestParts (absoluteLine method authority path version) =
      some (method, ascii "http://" ++ authority ++ path, version) := by
    simp only [requestParts, first, second, Option.bind_eq_bind, Option.bind_some, pure]
  have scheme : stripScheme (ascii "http://" ++ authority ++ path) = some (authority ++ path) := by
    rw [stripScheme, List.append_assoc, if_pos (List.isPrefixOf_iff_prefix.mpr
      (List.prefix_append _ _))]
    rfl
  simp only [parseHead, line, parts, scheme]

/-- A head whose first line is not UTF-8 makes the connection fail. -/
theorem parseHead_of_invalid {line fields : Bytes} (invalid : Utf8.valid line = false)
    (line_ends : findSub crlf (line ++ fields) = some line.length) :
    parseHead (line ++ fields) =
      .error (.fails (invalidData (ascii "Malformed HTTP proxy request"))) := by
  have no_line : firstRequestLine (line ++ fields) = none := by
    simp [firstRequestLine, line_ends, fromUtf8, invalid]
  rw [parseHead, no_line]

/-- An authority without slash is cut off a path that is empty or starts with one. -/
theorem splitUrl_rooted {authority path : Str} (no_slash : 47 ∉ authority)
    (rooted : ∀ b ∈ path.head?, b = 47) :
    splitUrl (authority ++ path) = (authority, if path = [] then ascii "/" else path) := by
  have unfound : authority.findIdx? (· = 47) = none := by
    refine List.findIdx?_eq_none_iff.mpr fun b mem => decide_eq_false fun slash => ?_
    exact no_slash (slash ▸ mem)
  rw [splitUrl, List.findIdx?_append, unfound]
  cases path with
  | nil => simp
  | cons b rest =>
      have slash : b = 47 := rooted b rfl
      simp [List.findIdx?_cons, slash]

/-- A request in absolute form: its line, what follows the line up to the first empty line, and a
body. -/
structure AbsoluteRequest where
  method : Str
  authority : Str
  path : Str
  version : Str
  fields : Bytes
  body : Bytes
  method_ends : 32 ∉ method
  authority_ends : 32 ∉ authority ∧ 47 ∉ authority
  path_ends : 32 ∉ path
  path_rooted : ∀ b ∈ path.head?, b = 47
  line_ends : findSub crlf (absoluteLine method authority path version ++ fields) =
    some (absoluteLine method authority path version).length
  head_ends : findHeadersEnd (absoluteLine method authority path version ++ fields) =
    some (absoluteLine method authority path version ++ fields).length

namespace AbsoluteRequest

def line (request : AbsoluteRequest) : Bytes :=
  absoluteLine request.method request.authority request.path request.version

def head (request : AbsoluteRequest) : Bytes := request.line ++ request.fields

def bytes (request : AbsoluteRequest) : Bytes := request.head ++ request.body

/-- Address of the host that the URL names. -/
def target (request : AbsoluteRequest) : Str := targetAddr request.authority

theorem head_ne_nil (request : AbsoluteRequest) : request.head ≠ [] := by
  simp [head, line, absoluteLine]

/-- The proxy reads the parts of a request in absolute form. -/
theorem parseHead_head (request : AbsoluteRequest) (valid : Utf8.valid request.line = true) :
    parseHead request.head = .ok ⟨request.method, request.authority,
      if request.path = [] then ascii "/" else request.path, request.version⟩ := by
  rw [head, line, parseHead_absoluteLine request.method_ends request.authority_ends.1
    request.path_ends valid request.line_ends,
    splitUrl_rooted request.authority_ends.2 request.path_rooted]

/-- A request that a server can be connected to for: its head can be read, its line is UTF-8, and
its address has a port. -/
structure Served (request : AbsoluteRequest) : Prop where
  fits : request.head.length ≤ maxConnectHeaderBytes
  valid : Utf8.valid request.line = true
  reachable : connectable request.target = true

end AbsoluteRequest

/-! ## What the client sends -/

/-- The bytes of requests one behind the other, marked with the number of their request. -/
def markedStream (requests : List AbsoluteRequest) : Marked Nat :=
  requests.zipIdx.flatMap fun (request, index) => mark index request.bytes

/-- What is read from the client. -/
def clientStream {κ : Type} (events : List (ProxyEvent κ)) : Marked κ :=
  events.flatMap fun
    | .clientRead chunk => chunk
    | _ => []

/-- Addresses that differ in letter case at most. -/
def SameHost (left right : Str) : Prop := eqIgnoreAsciiCase left right = true

/-- Bytes of a request are written to a server only where it is the one that its URL names. -/
def OwnOnly (requests : List AbsoluteRequest) (effects : List (ProxyEffect Nat)) : Prop :=
  ∀ target cells, .toServer target cells ∈ effects → ∀ cell ∈ cells, ∀ request,
    requests[cell.2]? = some request → SameHost request.target target

namespace HttpProxy

variable {first : AbsoluteRequest} {later : List AbsoluteRequest}

theorem markedStream_cons (first : AbsoluteRequest) (later : List AbsoluteRequest) :
    ∃ rest, markedStream (first :: later) = mark 0 first.head ++ rest := by
  refine ⟨mark 0 first.body ++ (later.zipIdx 1).flatMap fun (request, index) =>
    mark index request.bytes, ?_⟩
  simp [markedStream, List.zipIdx_cons, AbsoluteRequest.bytes, mark]

/-- Wherever the stream is cut, the first head that can be found is that of the first request. -/
theorem head_of_prefix {buf : Marked Nat} (cut : buf <+: markedStream (first :: later))
    {headersEnd : Nat} (found : findHeadersEnd (bytesOf buf) = some headersEnd) :
    headersEnd = first.head.length ∧ bytesOf (buf.take headersEnd) = first.head := by
  obtain ⟨rest, stream_eq⟩ := markedStream_cons first later
  obtain ⟨tail, joined⟩ := cut
  have bytes_eq : bytesOf buf ++ bytesOf tail = first.head ++ bytesOf rest := by
    rw [← bytesOf_append, joined, stream_eq, bytesOf_append, bytesOf_mark]
  obtain ⟨i, occurs, rfl⟩ := Option.map_eq_some_iff.mp found
  obtain ⟨j, occurs', j_eq⟩ := Option.map_eq_some_iff.mp
    (show findHeadersEnd first.head = some first.head.length from first.head_ends)
  have same : some i = some j := by
    rw [← findSub_append crlfcrlf_ne_nil occurs (bytesOf tail), bytes_eq,
      findSub_append crlfcrlf_ne_nil occurs' (bytesOf rest)]
  obtain rfl := Option.some.inj same
  refine ⟨j_eq, ?_⟩
  have bound : i + 4 ≤ (bytesOf buf).length := findSub_bound crlfcrlf_ne_nil occurs
  have taken := congrArg (List.take (i + 4)) bytes_eq
  rw [List.take_append_of_le_length bound, j_eq, List.take_left] at taken
  rw [bytesOf_take, j_eq, taken]

/-! ## Where the bytes go -/

/-- The proxy reads the stream, or is about to talk to the first host, or talks to it. -/
def Aims (first : AbsoluteRequest) (consumed : Marked Nat) : ProxyState Nat → Prop
  | .readingHead buf => buf = consumed
  | .answering => True
  | .connecting request _ _ =>
      (first.head.length ≤ maxConnectHeaderBytes ∧ Utf8.valid first.line = true) ∧
        request.hostPort = first.authority
  | .sending request _ => first.Served ∧ request.hostPort = first.authority
  | .copying copy => first.Served ∧ copy.request.hostPort = first.authority

/-- Effects write to the first host only, for a first request that can be served. -/
def AimedAt (first : AbsoluteRequest) (effects : List (ProxyEffect Nat)) : Prop :=
  ∀ target cells, .toServer target cells ∈ effects → first.Served ∧ target = first.target

theorem aims_onHeadBytes {buf : Marked Nat} (cut : buf <+: markedStream (first :: later)) :
    AimedAt first (onHeadBytes buf).outputs ∧
      ∀ next, (onHeadBytes buf).status = .running next → Aims first buf next := by
  unfold onHeadBytes
  split
  · refine ⟨by simp [AimedAt], ?_⟩
    rintro next ⟨⟩
  · rename_i short
    split
    · refine ⟨by simp [AimedAt], ?_⟩
      rintro next ⟨⟩
      rfl
    · rename_i headersEnd found
      obtain ⟨rfl, head_eq⟩ := head_of_prefix cut found
      have bound : first.head.length ≤ buf.length := by
        have occurs := findHeadersEnd_le found
        rwa [length_bytesOf] at occurs
      rw [onHead, head_eq]
      cases valid : Utf8.valid first.line with
      | false =>
          rw [AbsoluteRequest.head, parseHead_of_invalid valid first.line_ends]
          refine ⟨by simp [AimedAt], ?_⟩
          rintro next ⟨⟩
      | true =>
          rw [first.parseHead_head valid]
          refine ⟨by simp [AimedAt], ?_⟩
          rintro next ⟨⟩
          exact ⟨⟨bound.trans (not_lt.mp short), valid⟩, rfl⟩

theorem aims_settle (copy : Copying Nat) {effects : List (ProxyEffect Nat)} {consumed : Marked Nat}
    (aims : Aims first consumed (.copying copy)) (aimed : AimedAt first effects) :
    AimedAt first (settle copy effects).outputs ∧
      ∀ next, (settle copy effects).status = .running next → Aims first consumed next := by
  unfold settle
  split
  · refine ⟨fun target cells mem => aimed target cells (by simpa using mem), ?_⟩
    rintro next ⟨⟩
  · refine ⟨aimed, ?_⟩
    rintro next ⟨⟩
    exact aims

theorem aims_onCopying {copy : Copying Nat} (event : ProxyEvent Nat) {consumed : Marked Nat}
    (aims : Aims first consumed (.copying copy)) :
    AimedAt first (onCopying copy event).outputs ∧
      ∀ next, (onCopying copy event).status = .running next → Aims first consumed next := by
  obtain ⟨served, host⟩ := aims
  have aimless : AimedAt first [] := by simp [AimedAt]
  cases event with
  | clientEof => exact aims_settle { copy with clientDone := true } ⟨served, host⟩ aimless
  | serverEof => exact aims_settle { copy with serverDone := true } ⟨served, host⟩ aimless
  | serverWrites count =>
      refine aims_settle
        { copy with toServer := copy.toServer.drop count, sent := copy.sent + count }
        ⟨served, host⟩ ?_
      intro target cells mem
      obtain ⟨rfl, -⟩ := ProxyEffect.toServer.inj (List.mem_singleton.mp mem)
      exact ⟨served, congrArg targetAddr host⟩
  | clientWrites count =>
      refine aims_settle
        { copy with toClient := copy.toClient.drop count, received := copy.received + count }
        ⟨served, host⟩ ?_
      simp [AimedAt]
  | clientError error =>
      refine ⟨by simp [onCopying, AimedAt], ?_⟩
      rintro next ⟨⟩
  | serverError error =>
      refine ⟨by simp [onCopying, AimedAt], ?_⟩
      rintro next ⟨⟩
  | _ =>
      refine ⟨aimless, ?_⟩
      rintro next ⟨⟩
      exact ⟨served, host⟩

/-- One event keeps the aim. -/
theorem aims_react {s : ProxyState Nat} {event : ProxyEvent Nat} {consumed : Marked Nat}
    (polled : (handleHttpProxy Nat).polls s event = true) (aims : Aims first consumed s)
    (cut : consumed ++ clientStream [event] <+: markedStream (first :: later)) :
    AimedAt first (react s event).outputs ∧ ∀ next, (react s event).status = .running next →
      Aims first (consumed ++ clientStream [event]) next := by
  have aimless : AimedAt first [] := by simp [AimedAt]
  cases s with
  | readingHead buf =>
      obtain rfl : buf = consumed := aims
      cases event with
      | clientRead chunk =>
          have stream : clientStream [ProxyEvent.clientRead chunk] = chunk := by simp [clientStream]
          rw [stream] at cut ⊢
          exact aims_onHeadBytes cut
      | clientEof =>
          refine ⟨aimless, ?_⟩
          rintro next ⟨⟩
      | clientError error =>
          refine ⟨aimless, ?_⟩
          rintro next ⟨⟩
      | _ => cases polled
  | answering =>
      cases event with
      | answered outcome =>
          refine ⟨aimless, ?_⟩
          rintro next ⟨⟩
      | _ => cases polled
  | connecting request rewritten body =>
      cases event with
      | connected outcome =>
          cases outcome with
          | ok done =>
              obtain ⟨⟨fits, valid⟩, host⟩ := aims
              have reachable : connectable (targetAddr request.hostPort) = true := polled
              refine ⟨aimless, ?_⟩
              rintro next ⟨⟩
              exact ⟨⟨fits, valid, by rwa [host] at reachable⟩, host⟩
          | error error =>
              refine ⟨by simp [react, onConnected, AimedAt], ?_⟩
              rintro next ⟨⟩
              trivial
      | _ => cases polled
  | sending request rest =>
      obtain ⟨served, host⟩ := aims
      cases event with
      | serverWrites count =>
          constructor
          · intro target cells mem
            obtain ⟨rfl, -⟩ := ProxyEffect.toServer.inj (List.mem_singleton.mp mem)
            exact ⟨served, congrArg targetAddr host⟩
          · intro next goes_on
            simp only [react, Status.running.injEq] at goes_on
            subst goes_on
            split
            · exact ⟨served, host⟩
            · exact ⟨served, host⟩
      | serverError error =>
          refine ⟨aimless, ?_⟩
          rintro next ⟨⟩
      | _ => cases polled
  | copying copy =>
      have aims' : Aims first (consumed ++ clientStream [event]) (.copying copy) := aims
      have copies := aims_onCopying event aims'
      cases event <;> exact copies

/-- A run over the stream writes to the first host only. -/
theorem aimedAt_of_run {s : ProxyState Nat} {events : List (ProxyEvent Nat)}
    {effects : List (ProxyEffect Nat)} {status : Status (ProxyState Nat) (Except IoError Unit)}
    {consumed : Marked Nat} (execution : (handleHttpProxy Nat).Run s events effects status)
    (aims : Aims first consumed s)
    (cut : consumed ++ clientStream events <+: markedStream (first :: later)) :
    AimedAt first effects := by
  induction execution generalizing consumed with
  | stop state => simp [AimedAt]
  | @step state next event events outputs others status polled reacts _ ih =>
      have split_stream : clientStream (event :: events) =
          clientStream [event] ++ clientStream events := by simp [clientStream]
      rw [split_stream, ← List.append_assoc] at cut
      have step := aims_react polled aims ((List.prefix_append _ _).trans cut)
      change AimedAt first ((handleHttpProxy Nat).react state event).outputs ∧ ∀ next,
        ((handleHttpProxy Nat).react state event).status = .running next → _ at step
      rw [reacts] at step
      intro target cells mem
      rcases List.mem_append.mp mem with now | afterwards
      · exact step.1 target cells now
      · exact ih (step.2 next rfl) cut target cells afterwards
  | @halt state event outputs verdict polled reacts =>
      have step := (aims_react polled aims cut).1
      change AimedAt first ((handleHttpProxy Nat).react state event).outputs at step
      rwa [reacts] at step

/-! ## A run that mixes requests -/

theorem clientStream_append {κ : Type} (left right : List (ProxyEvent κ)) :
    clientStream (left ++ right) = clientStream left ++ clientStream right := List.flatMap_append

/-- Read byte by byte. -/
def readEach (cells : Marked Nat) : List (ProxyEvent Nat) :=
  cells.map fun cell => .clientRead [cell]

@[simp] theorem clientStream_readEach (cells : Marked Nat) :
    clientStream (readEach cells) = cells := by
  induction cells with
  | nil => rfl
  | cons cell cells ih =>
      have split_stream : clientStream (readEach (cell :: cells)) =
          cell :: clientStream (readEach cells) := by simp [clientStream, readEach]
      rw [split_stream, ih]

theorem run_readEach (buf cells : Marked Nat)
    (short : (buf ++ cells).length ≤ maxConnectHeaderBytes)
    (unfound : findHeadersEnd (bytesOf (buf ++ cells)) = none) :
    (handleHttpProxy Nat).Run (.readingHead buf) (readEach cells) []
      (.running (.readingHead (buf ++ cells))) := by
  induction cells generalizing buf with
  | nil =>
      rw [List.append_nil]
      exact .stop _
  | cons cell cells ih =>
      rw [List.append_cons] at short unfound ⊢
      have fits : (buf ++ [cell]).length ≤ maxConnectHeaderBytes := by
        rw [List.length_append] at short
        omega
      have unfound' : findHeadersEnd (bytesOf (buf ++ [cell])) = none := by
        by_contra found
        obtain ⟨headersEnd, found⟩ := Option.ne_none_iff_exists'.mp found
        obtain ⟨i, occurs, -⟩ := Option.map_eq_some_iff.mp found
        have occurs' := findSub_append crlfcrlf_ne_nil occurs (bytesOf cells)
        rw [← bytesOf_append] at occurs'
        rw [findHeadersEnd, occurs'] at unfound
        cases unfound
      have reads : (handleHttpProxy Nat).react (.readingHead buf) (.clientRead [cell]) =
          ⟨[], .running (.readingHead (buf ++ [cell]))⟩ := by
        change onHeadBytes (buf ++ [cell]) = _
        rw [onHeadBytes, if_neg (not_lt.mpr fits), unfound']
      exact .step rfl reads (ih _ short unfound)

/-- Copied byte by byte. -/
def copyEach (cells : Marked Nat) : List (ProxyEvent Nat) :=
  cells.flatMap fun cell => [.clientRead [cell], .serverWrites 1]

@[simp] theorem clientStream_copyEach (cells : Marked Nat) :
    clientStream (copyEach cells) = cells := by
  induction cells with
  | nil => rfl
  | cons cell cells ih =>
      have split_stream : clientStream (copyEach (cell :: cells)) =
          cell :: clientStream (copyEach cells) := by simp [clientStream, copyEach]
      rw [split_stream, ih]

theorem run_copyEach (request : ProxyRequest) (cells : Marked Nat) (sent : Nat) :
    ∃ copied, (handleHttpProxy Nat).Run (.copying { request, sent }) (copyEach cells)
      (cells.map fun cell => .toServer (targetAddr request.hostPort) [cell])
      (.running (.copying { request, sent := copied })) := by
  induction cells generalizing sent with
  | nil => exact ⟨sent, .stop _⟩
  | cons cell cells ih =>
      obtain ⟨copied, rest⟩ := ih (sent + 1)
      have reads : (handleHttpProxy Nat).react (.copying { request, sent }) (.clientRead [cell]) =
          ⟨[], .running (.copying { request, sent, toServer := [cell] })⟩ := rfl
      have writes : (handleHttpProxy Nat).react (.copying { request, sent, toServer := [cell] })
          (.serverWrites 1) = ⟨[.toServer (targetAddr request.hostPort) [cell]],
            .running (.copying { request, sent := sent + 1 })⟩ := rfl
      exact ⟨copied, .step rfl reads (.step rfl writes rest)⟩

theorem rewriteHead_ne_nil {κ : Type} {head : Marked κ} (nonempty : head ≠ [])
    (request : ProxyRequest) : rewriteHead head request ≠ [] := by
  obtain ⟨⟨byte, index⟩, rest, rfl⟩ := List.exists_cons_of_ne_nil nonempty
  intro empty
  have line_empty := List.map_eq_nil_iff.mp (List.append_eq_nil_iff.mp empty).1
  exact List.cons_ne_nil _ _ (List.append_eq_nil_iff.mp line_empty).2

/-- A server that takes at once what it is offered. -/
theorem run_connecting {κ : Type} {request : ProxyRequest} {rewritten body : Marked κ}
    (reachable : connectable (targetAddr request.hostPort) = true)
    (filled : rewritten ++ body ≠ []) :
    (handleHttpProxy κ).Run (.connecting request rewritten body)
      [.connected (.ok ()), .serverWrites (rewritten ++ body).length]
      [.toServer (targetAddr request.hostPort) (rewritten ++ body)]
      (.running (.copying { request })) := by
  have connects : (handleHttpProxy κ).react (.connecting request rewritten body)
      (.connected (.ok ())) = ⟨[], .running (.sending request (rewritten ++ body))⟩ := rfl
  have takes : (handleHttpProxy κ).react (.sending request (rewritten ++ body))
      (.serverWrites (rewritten ++ body).length) =
      ⟨[.toServer (targetAddr request.hostPort) (rewritten ++ body)],
        .running (.copying { request })⟩ := by
    change (⟨[.toServer _ ((rewritten ++ body).take _)], .running (if _ then _ else _)⟩ :
      ProxyReaction κ) = _
    rw [if_neg (lt_irrefl _), List.take_length]
  have polled : (handleHttpProxy κ).polls (.sending request (rewritten ++ body))
      (.serverWrites (rewritten ++ body).length) = true := by
    change (decide (0 < _) && decide (_ ≤ (rewritten ++ body).length)) = true
    rw [decide_eq_true (List.length_pos_iff.mpr filled), decide_eq_true le_rfl, Bool.true_and]
  exact .step reachable connects (.step polled takes (.stop _))

/-- The first head is read byte by byte, and the server is connected to and takes it at once. -/
theorem exists_run_to_copying (served : first.Served) :
    ∃ request events effects, request.hostPort = first.authority ∧
      clientStream events = mark 0 first.head ∧
      (handleHttpProxy Nat).Run (.readingHead []) events effects
        (.running (.copying { request })) := by
  obtain ⟨front, last, head_eq⟩ : ∃ front last, first.head = front ++ [last] :=
    ⟨_, _, (List.dropLast_append_getLast first.head_ne_nil).symm⟩
  have marked : mark 0 first.head = mark 0 front ++ [(last, 0)] := by simp [head_eq, mark]
  have length_eq : (mark 0 front ++ [(last, 0)]).length = first.head.length := by
    rw [← marked]
    simp [mark]
  have unfound : findHeadersEnd (bytesOf ([] ++ mark 0 front)) = none := by
    rw [List.nil_append, bytesOf_mark]
    by_contra found
    obtain ⟨headersEnd, found⟩ := Option.ne_none_iff_exists'.mp found
    have bound := findHeadersEnd_le found
    obtain ⟨i, occurs, rfl⟩ := Option.map_eq_some_iff.mp found
    have whole : findHeadersEnd first.head = some (i + 4) := by
      rw [findHeadersEnd, head_eq, findSub_append crlfcrlf_ne_nil occurs [last]]
      rfl
    have ends := (show findHeadersEnd first.head = some first.head.length from first.head_ends)
    rw [whole, head_eq, List.length_append] at ends
    have same := Option.some.inj ends
    simp only [List.length_singleton] at same
    omega
  have reads := run_readEach [] (mark 0 front)
    (by have fits := served.fits; rw [List.length_append] at length_eq; simp at length_eq ⊢; omega)
    unfound
  let request : ProxyRequest := ⟨first.method, first.authority,
    if first.path = [] then ascii "/" else first.path, first.version⟩
  let rewritten := rewriteHead (mark 0 first.head) request
  have finds : (handleHttpProxy Nat).react (.readingHead ([] ++ mark 0 front))
      (.clientRead [(last, 0)]) =
      ⟨[.log (.httpProxyRequest request (targetAddr request.hostPort)),
          .connect (targetAddr request.hostPort)],
          .running (.connecting request rewritten [])⟩ := by
    change onHeadBytes (mark 0 front ++ [(last, 0)]) = _
    have found : findHeadersEnd first.head = some first.head.length := first.head_ends
    rw [onHeadBytes, length_eq, if_neg (not_lt.mpr served.fits), ← marked, bytesOf_mark, found]
    simp only [onHead]
    rw [List.take_of_length_le (by simp [mark]), List.drop_of_length_le (by simp [mark]),
      bytesOf_mark, first.parseHead_head served.valid]
  have filled : rewritten ++ [] ≠ [] := by
    rw [List.append_nil]
    refine rewriteHead_ne_nil (fun empty => ?_) request
    exact first.head_ne_nil (List.map_eq_nil_iff.mp empty)
  refine ⟨request, _, _, rfl, ?_,
    reads.append (.step rfl finds (run_connecting served.reachable filled))⟩
  rw [clientStream_append, clientStream_readEach, marked]
  rfl

/-- Every part of the stream behind the head of a request that is served can get to its host. -/
theorem exists_run_to_first (served : first.Served) {cells : Marked Nat}
    (cut : mark 0 first.head ++ cells <+: markedStream (first :: later)) :
    ∃ events effects status,
      (handleHttpProxy Nat).Run (.readingHead []) events effects status ∧
        clientStream events <+: markedStream (first :: later) ∧
        ∀ cell ∈ cells, .toServer first.target [cell] ∈ effects := by
  obtain ⟨request, events, effects, host, stream, connects⟩ := exists_run_to_copying served
  obtain ⟨copied, copies⟩ := run_copyEach request cells 0
  refine ⟨_, _, _, connects.append copies, ?_, fun cell mem => ?_⟩
  · rw [clientStream_append, stream, clientStream_copyEach]
    exact cut
  · refine List.mem_append_right _ (List.mem_map.mpr ⟨cell, mem, ?_⟩)
    rw [host]
    rfl

/-- Every byte of a later request is somewhere behind the first head. -/
theorem exists_cell_of_later (first : AbsoluteRequest) {request : AbsoluteRequest}
    (listed : request ∈ later) :
    ∃ cells cell, cell ∈ cells ∧ (first :: later)[cell.2]? = some request ∧
        mark 0 first.head ++ cells <+: markedStream (first :: later) := by
  obtain ⟨index, found⟩ := List.getElem?_of_mem listed
  obtain ⟨rest, stream_eq⟩ := markedStream_cons first later
  have bytes_ne : request.bytes ≠ [] := by simp [AbsoluteRequest.bytes, request.head_ne_nil]
  obtain ⟨byte, mem⟩ := List.exists_mem_of_ne_nil _ bytes_ne
  have numbered : (request, index + 1) ∈ (first :: later).zipIdx :=
    List.mem_zipIdx_iff_getElem?.mpr (by simpa using found)
  have streamed : (byte, index + 1) ∈ markedStream (first :: later) :=
    List.mem_flatMap.mpr ⟨_, numbered, List.mem_map.mpr ⟨byte, mem, rfl⟩⟩
  rw [stream_eq] at streamed
  refine ⟨rest, (byte, index + 1), ?_, by simpa using found, by rw [stream_eq]⟩
  rcases List.mem_append.mp streamed with head | behind
  · obtain ⟨other, -, same⟩ := List.mem_map.mp head
    cases (Prod.mk.inj same).2
  · exact behind

/-- Whatever way a connection is cut and its server behaves, requests get to their own hosts only,
exactly if the first one cannot be served or all requests are for the host of the first. -/
theorem requests_stay_apart_iff (first : AbsoluteRequest) (later : List AbsoluteRequest) :
    (∀ events effects status, (handleHttpProxy Nat).Run (.readingHead []) events effects status →
        clientStream events <+: markedStream (first :: later) →
        OwnOnly (first :: later) effects) ↔
      ¬ first.Served ∨ ∀ request ∈ later, SameHost request.target first.target := by
  constructor
  · intro apart
    by_cases served : first.Served
    · refine .inr fun request listed => ?_
      obtain ⟨cells, cell, mem, named, cut⟩ := exists_cell_of_later first listed
      obtain ⟨events, effects, status, execution, stream, written⟩ := exists_run_to_first served cut
      exact apart events effects status execution stream _ _ (written cell mem) cell
        (List.mem_singleton_self cell) request named
    · exact .inl served
  · intro cause events effects status execution stream target cells mem cell _ request named
    obtain ⟨served, rfl⟩ := aimedAt_of_run execution rfl stream target cells mem
    rcases cause with unserved | same
    · exact absurd served unserved
    · rcases List.mem_cons.mp (List.mem_of_getElem? named) with rfl | listed
      · simp [SameHost, eqIgnoreAsciiCase]
      · exact same request listed

/-! ### A connection used for two hosts -/

/-- `GET http://a.example/ HTTP/1.1` and no fields. -/
def requestToA : AbsoluteRequest where
  method := ascii "GET"
  authority := ascii "a.example"
  path := ascii "/"
  version := ascii "HTTP/1.1"
  fields := crlfcrlf
  body := []
  method_ends := by decide
  authority_ends := by decide
  path_ends := by decide
  path_rooted _ mem := (Option.some.inj mem).symm
  line_ends := by decide +kernel
  head_ends := by decide +kernel

/-- `GET http://b.example/ HTTP/1.1` with a cookie. -/
def requestToB : AbsoluteRequest where
  method := ascii "GET"
  authority := ascii "b.example"
  path := ascii "/"
  version := ascii "HTTP/1.1"
  fields := crlf ++ ascii "cookie: id=1" ++ crlfcrlf
  body := []
  method_ends := by decide
  authority_ends := by decide
  path_ends := by decide
  path_rooted _ mem := (Option.some.inj mem).symm
  line_ends := by decide +kernel
  head_ends := by decide +kernel

/-- The second request, cookie included, is written to the first host. -/
theorem second_request_reaches_first_host :
    ¬ ∀ events effects status,
      (handleHttpProxy Nat).Run (.readingHead []) events effects status →
        clientStream events <+: markedStream [requestToA, requestToB] →
        OwnOnly [requestToA, requestToB] effects := by
  intro apart
  have served : requestToA.Served := ⟨by decide, by decide +kernel, by decide +kernel⟩
  obtain ⟨cells, cell, mem, named, cut⟩ :=
    exists_cell_of_later requestToA (List.mem_singleton_self requestToB)
  obtain ⟨events, effects, status, execution, stream, written⟩ := exists_run_to_first served cut
  have same : SameHost requestToB.target requestToA.target :=
    apart events effects status execution stream _ _ (written cell mem) cell
      (List.mem_singleton_self cell) requestToB named
  have different : ¬ SameHost requestToB.target requestToA.target := by
    unfold SameHost
    decide
  exact different same

end HttpProxy

end PrivacyEngine
