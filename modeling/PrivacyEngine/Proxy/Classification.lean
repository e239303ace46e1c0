import PrivacyEngine.Policy.Engine
import PrivacyEngine.Wire.Reader

/-!
# Classification of connections

A connection is classified by one peek at its first bytes.  Three recognizers look at them: the
method of a CONNECT request, the server name of a ClientHello, and the method of any other request.
The route is the one of the whole stream exactly when the peek already shows the bytes that decide.
-/

namespace PrivacyEngine

open Wire

def maxPeekBytes : Nat := 8192

/-! ## The server name of a ClientHello -/

def readName : Reader (UInt8 × Bytes) := do
  let nameType ← readU8
  let nameLen ← readU16
  let name ← readSlice nameLen
  return (nameType, name)

def readExtension : Reader (Nat × Bytes) := do
  let extType ← readU16
  let extLen ← readU16
  let extData ← readSlice extLen
  return (extType, extData)

/-- The names of a server-name extension, with one unit of fuel per name. -/
def nameListSni : Nat → Bytes → Option Str
  | 0, _ => none
  | fuel + 1, names =>
      if names.length = 0 then none
      else
        match readName names with
        | none => none
        | some ((nameType, name), rest) =>
            if nameType = 0 then fromUtf8 name else nameListSni fuel rest

def parseSniExtension (data : Bytes) : Option Str :=
  match readU16 data with
  | none => none
  | some (listLen, names) =>
      if listLen ≠ names.length then none else nameListSni (names.length + 1) names

/-- The first server name among the extensions, with one unit of fuel per extension. -/
def extensionsSni : Nat → Bytes → Option Str
  | 0, _ => none
  | fuel + 1, extensions =>
      if extensions.length < 4 then none
      else
        match readExtension extensions with
        | none => none
        | some ((extType, extData), rest) =>
            if extType = 0 then parseSniExtension extData else extensionsSni fuel rest

/-- A length that is only read while there is room for it. -/
def readExtensionsLen : Reader Nat := fun s => if s.length < 2 then none else readU16 s

/-- The extensions of a ClientHello. -/
def clientHello : Reader Bytes := do
  let recordType ← readU8
  require (recordType = 0x16)
  skip 2
  skip 2
  let handshakeType ← readU8
  require (handshakeType = 0x01)
  skip 3
  skip 2
  skip 32
  let sessionIdLen ← readU8
  skip sessionIdLen.toNat
  let cipherSuitesLen ← readU16
  skip cipherSuitesLen
  let compressionLen ← readU8
  skip compressionLen.toNat
  let extensionsLen ← readExtensionsLen
  readSlice extensionsLen

def parseSni (buffer : Bytes) : Option Str :=
  (clientHello buffer).bind fun (extensions, _) => extensionsSni (extensions.length + 1) extensions

/-! ## Routes -/

def httpMethods : List Bytes :=
  [ascii "GET ", ascii "POST ", ascii "PUT ", ascii "PATCH ", ascii "DELETE ", ascii "HEAD ",
    ascii "OPTIONS ", ascii "TRACE ", ascii "CONNECT "]

def looksLikeHttpRequest (buf : Bytes) : Bool :=
  httpMethods.any (startsWithAsciiCaseInsensitive buf)

/-- What a connection is handled as. -/
inductive Route where
  | connectTunnel
  | transparentTls (sni : Str)
  | httpProxy
  | rejected
  deriving DecidableEq

/-- The choice that `handle_connection` makes on the bytes it has peeked at. -/
def route (peeked : Bytes) : Route :=
  if startsWithAsciiCaseInsensitive peeked (ascii "CONNECT ") then .connectTunnel
  else
    match parseSni peeked with
    | some sni => .transparentTls sni
    | none => if looksLikeHttpRequest peeked then .httpProxy else .rejected

/-- How many bytes decide the route of a stream: its method, or its ClientHello up to the end of
the extensions when they name a server. -/
def decidingBytes (stream : Bytes) : Nat :=
  match httpMethods.find? (startsWithAsciiCaseInsensitive stream) with
  | some method => method.length
  | none =>
      match clientHello stream with
      | some (extensions, rest) =>
          if (extensionsSni (extensions.length + 1) extensions).isSome then
            stream.length - rest.length
          else 0
      | none => 0

/-! ## Recognizers on the front of a stream -/

theorem readExtensionsLen_eq : readExtensionsLen = readU16 := by
  funext s
  rw [readExtensionsLen]
  split
  · rename_i short
    cases s with
    | nil => rfl
    | cons high s =>
        cases s with
        | nil => rfl
        | cons low s =>
            simp only [List.length_cons] at short
            omega
  · rfl

theorem determined_clientHello : Determined clientHello := by
  unfold clientHello
  rw [readExtensionsLen_eq]
  refine .bind .readU8 fun recordType => .bind (.require _) fun _ => .bind (.skip 2) fun _ =>
    .bind (.skip 2) fun _ => .bind .readU8 fun handshakeType => .bind (.require _) fun _ =>
    .bind (.skip 3) fun _ => .bind (.skip 2) fun _ => .bind (.skip 32) fun _ =>
    .bind .readU8 fun sessionIdLen => .bind (.skip _) fun _ => .bind .readU16 fun cipherSuitesLen =>
    .bind (.skip _) fun _ => .bind .readU8 fun compressionLen => .bind (.skip _) fun _ =>
    .bind .readU16 fun extensionsLen => .readSlice _

/-- A cut stream starts with a literal when the stream does and the cut is behind it. -/
theorem startsWith_take_iff {s lit : Bytes} {k : Nat} :
    startsWithAsciiCaseInsensitive (s.take k) lit = true ↔
      startsWithAsciiCaseInsensitive s lit = true ∧ lit.length ≤ k := by
  rw [startsWithAsciiCaseInsensitive_iff, startsWithAsciiCaseInsensitive_iff, toAsciiLowercase,
    toAsciiLowercase, toAsciiLowercase, List.map_take, List.prefix_take_iff, List.length_map]

/-- No method is the start of another. -/
theorem method_unique {s method other : Bytes} (mem : method ∈ httpMethods)
    (other_mem : other ∈ httpMethods) (starts : startsWithAsciiCaseInsensitive s method = true)
    (other_starts : startsWithAsciiCaseInsensitive s other = true) : method = other := by
  have apart : ∀ method ∈ httpMethods, ∀ other ∈ httpMethods,
      toAsciiLowercase method <+: toAsciiLowercase other → method = other := by decide
  rw [startsWithAsciiCaseInsensitive_iff] at starts other_starts
  rcases List.prefix_or_prefix_of_prefix starts other_starts with front | front
  · exact apart method mem other other_mem front
  · exact (apart other other_mem method mem front).symm

theorem clientHello_first {s : Bytes} {found : Bytes × Bytes} (reads : clientHello s = some found) :
    [22] <+: s := by
  obtain ⟨⟨recordType, behind⟩, first, later⟩ := Option.bind_eq_some_iff.mp reads
  obtain ⟨passed, required, -⟩ := Option.bind_eq_some_iff.mp later
  cases s with
  | nil => cases first
  | cons b s =>
      cases first
      unfold require at required
      split at required
      · rename_i handshake
        obtain rfl := of_decide_eq_true handshake
        exact List.prefix_append [22] behind
      · cases required

/-- A request is no ClientHello. -/
theorem clientHello_of_method {s method : Bytes} (mem : method ∈ httpMethods)
    (starts : startsWithAsciiCaseInsensitive s method = true) : clientHello s = none := by
  have letter : ∀ method ∈ httpMethods,
      toAsciiLowercase method ≠ [] ∧ ¬ [22] <+: toAsciiLowercase method := by decide
  obtain ⟨filled, other⟩ := letter method mem
  cases reads : clientHello s with
  | none => rfl
  | some found =>
      have first : [22] <+: toAsciiLowercase s := (clientHello_first reads).map asciiLower
      rw [startsWithAsciiCaseInsensitive_iff] at starts
      have front := List.prefix_of_prefix_length_le first starts (List.length_pos_iff.mpr filled)
      exact absurd front other

theorem parseSni_of_none {s : Bytes} (reads : clientHello s = none) : parseSni s = none := by
  rw [parseSni, reads]
  rfl

/-! ## The route of a cut stream -/

section Route

variable {stream method : Bytes}

/-- A request is handled by its method. -/
theorem route_of_method (mem : method ∈ httpMethods)
    (starts : startsWithAsciiCaseInsensitive stream method = true) :
    route stream = if method = ascii "CONNECT " then .connectTunnel else .httpProxy := by
  have looks : looksLikeHttpRequest stream = true := List.any_eq_true.mpr ⟨method, mem, starts⟩
  rw [route, parseSni_of_none (clientHello_of_method mem starts), looks]
  by_cases connects : method = ascii "CONNECT "
  · rw [if_pos connects, ← connects, if_pos starts]
  · have other : ¬ startsWithAsciiCaseInsensitive stream (ascii "CONNECT ") = true := fun both =>
      connects (method_unique mem (by decide) starts both)
    rw [if_neg connects, if_neg other]
    rfl

/-- Without a method the server name decides. -/
theorem route_of_no_method
    (none_starts : ∀ method ∈ httpMethods, startsWithAsciiCaseInsensitive stream method = false) :
    route stream =
      match parseSni stream with
      | some sni => .transparentTls sni
      | none => .rejected := by
  have unlike : looksLikeHttpRequest stream = false := by
    rw [looksLikeHttpRequest, List.any_eq_false]
    intro method mem
    rw [none_starts method mem]
    exact Bool.false_ne_true
  have no_connect := none_starts (ascii "CONNECT ") (by decide)
  simp only [route, no_connect, unlike, Bool.false_eq_true, if_false]

/-- A stream that starts with a method, and a peek at its first bytes. -/
theorem route_take_of_method (mem : method ∈ httpMethods)
    (starts : startsWithAsciiCaseInsensitive stream method = true) (k : Nat) :
    route (stream.take k) = route stream ↔ method.length ≤ k := by
  constructor
  · intro same
    by_contra short
    have none_starts : ∀ other ∈ httpMethods,
        startsWithAsciiCaseInsensitive (stream.take k) other = false := by
      intro other other_mem
      rw [← Bool.not_eq_true, startsWith_take_iff]
      rintro ⟨other_starts, covers⟩
      rw [method_unique other_mem mem other_starts starts] at covers
      exact short covers
    have unread := determined_clientHello.take_none (clientHello_of_method mem starts) k
    rw [route_of_no_method none_starts, parseSni_of_none unread, route_of_method mem starts] at same
    by_cases connects : method = ascii "CONNECT "
    · rw [if_pos connects] at same
      cases same
    · rw [if_neg connects] at same
      cases same
  · intro covers
    have cut_starts : startsWithAsciiCaseInsensitive (stream.take k) method = true :=
      startsWith_take_iff.mpr ⟨starts, covers⟩
    rw [route_of_method mem cut_starts, route_of_method mem starts]

/-- A peek gives the route of the stream exactly when it shows the bytes that decide. -/
theorem route_take_iff (stream : Bytes) (k : Nat) :
    route (stream.take k) = route stream ↔ decidingBytes stream ≤ k := by
  rw [decidingBytes]
  cases found : httpMethods.find? (startsWithAsciiCaseInsensitive stream) with
  | some method =>
      have starts : startsWithAsciiCaseInsensitive stream method = true := by
        simpa using List.find?_some found
      exact route_take_of_method (List.mem_of_find?_eq_some found) starts k
  | none =>
      have none_starts : ∀ method ∈ httpMethods,
          startsWithAsciiCaseInsensitive stream method = false := fun method mem =>
        Bool.eq_false_iff.mpr (List.find?_eq_none.mp found method mem)
      have cut_none : ∀ method ∈ httpMethods,
          startsWithAsciiCaseInsensitive (stream.take k) method = false := by
        intro method mem
        rw [← Bool.not_eq_true, startsWith_take_iff, none_starts method mem]
        exact fun both => Bool.false_ne_true both.1
      rw [route_of_no_method none_starts, route_of_no_method cut_none]
      cases reads : clientHello stream with
      | none =>
          rw [parseSni_of_none reads, parseSni_of_none (determined_clientHello.take_none reads k)]
          exact iff_of_true rfl (Nat.zero_le k)
      | some hello =>
          obtain ⟨extensions, rest⟩ := hello
          have cut := determined_clientHello.take reads k
          rw [parseSni, parseSni, reads, cut]
          cases sni : extensionsSni (extensions.length + 1) extensions with
          | none =>
              refine iff_of_true ?_ (by simp [sni])
              by_cases covers : stream.length - rest.length ≤ k
              · simp [covers, sni]
              · simp [covers, sni]
          | some name =>
              by_cases covers : stream.length - rest.length ≤ k
              · simp [covers, sni]
              · simp [covers, sni]

end Route

/-- A stream whose segments arrive one by one, and what the single peek may see of them. -/
def Peeks (segments : List Bytes) (peeked : Bytes) : Prop :=
  ∃ arrived, arrived <+: segments ∧ peeked = arrived.flatten.take maxPeekBytes ∧ peeked ≠ []

/-- However a stream arrives, its connection takes the route of its first bytes exactly when the
peek shows the bytes that decide. -/
theorem route_of_peek_iff {segments : List Bytes} {peeked : Bytes} (peeks : Peeks segments peeked) :
    route peeked = route (segments.flatten.take maxPeekBytes) ↔
      decidingBytes (segments.flatten.take maxPeekBytes) ≤ peeked.length := by
  obtain ⟨arrived, front, seen, -⟩ := peeks
  have cut : peeked = (segments.flatten.take maxPeekBytes).take peeked.length := by
    have starts : arrived.flatten <+: segments.flatten := by
      obtain ⟨later, rfl⟩ := front
      rw [List.flatten_append]
      exact List.prefix_append _ _
    have peeked_starts : peeked <+: segments.flatten.take maxPeekBytes := by
      rw [seen]
      exact starts.take maxPeekBytes
    exact List.prefix_iff_eq_take.mp peeked_starts
  conv_lhs => rw [cut]
  exact route_take_iff _ _

/-- The head of a CONNECT request, cut into two segments after `n` bytes. -/
def connectSegments (n : Nat) : List Bytes :=
  [(ascii "CONNECT a:443 HTTP/1.1\r\n\r\n").take n, (ascii "CONNECT a:443 HTTP/1.1\r\n\r\n").drop n]

theorem peeks_connectSegments {n : Nat} (fits : (connectSegments n).head! ≠ []) (le : n ≤ 8192) :
    Peeks (connectSegments n) (connectSegments n).head! := by
  refine ⟨[(connectSegments n).head!], List.prefix_append _ _, ?_, fits⟩
  have short : ((connectSegments n).head!).length ≤ maxPeekBytes := by
    exact Nat.le_trans (List.length_take_le _ _) le
  rw [List.flatten_singleton, List.take_of_length_le short]

/-- The peek sees the method, and the rest of the request is still on its way. -/
theorem route_of_first_line :
    route (connectSegments 24).head! = route ((connectSegments 24).flatten.take maxPeekBytes) ↔
      decidingBytes ((connectSegments 24).flatten.take maxPeekBytes) ≤
        (connectSegments 24).head!.length :=
  route_of_peek_iff (peeks_connectSegments (by decide +kernel) (by decide))

/-- The method itself arrives in two segments: the connection is rejected. -/
theorem cut_method_is_rejected :
    ¬ ∀ segments peeked, Peeks segments peeked →
      route peeked = route (segments.flatten.take maxPeekBytes) := by
  intro same
  have rejected : route (connectSegments 3).head! = .rejected := by decide +kernel
  have tunnels : route ((connectSegments 3).flatten.take maxPeekBytes) = .connectTunnel := by
    decide +kernel
  have routes := same _ _ (peeks_connectSegments (by decide +kernel) (by decide : 3 ≤ 8192))
  rw [rejected, tunnels] at routes
  cases routes

end PrivacyEngine
