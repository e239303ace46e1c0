import PrivacyEngine.Mitm.Conservation
import PrivacyEngine.Mitm.Reframe

/-!
# What follows a rewritten body

A replaced body has another length, and the client stays in step with the server only if it can
tell where the replacement ends.  Once a body has been replaced, the client's stream is a header
block that announces the replacement, the replacement, and exactly the upstream bytes that follow
the original message.
-/

namespace PrivacyEngine

open Wire Reactive

namespace RelayEnv

variable (env : RelayEnv)

/-- The first message behind its headers: the body as rewritten from, and the bytes behind it. -/
inductive FirstMessage (closed : Bool) (headers after : Bytes) : Bytes → Bytes → Prop
  | chunked {decoded : Bytes} {consumed : Nat} (framing : framingOf headers = .chunked)
      (decodes : tryDecodeChunkedMessage after = some (decoded, consumed)) :
      FirstMessage closed headers after decoded (after.drop consumed)
  | complete {expected : Nat} (framing : framingOf headers = .length expected)
      (fits : expected ≤ after.length) :
      FirstMessage closed headers after (after.take expected) (after.drop expected)
  | cutShort {expected : Nat} (ended : closed = true)
      (framing : framingOf headers = .length expected) (short : after.length < expected) :
      FirstMessage closed headers after after []
  | untilClose (ended : closed = true) (framing : framingOf headers = .untilClose) :
      FirstMessage closed headers after after []

variable {env} {events : List RelayEvent} {outputs : List Effect}
  {status : Status RelayState RelayVerdict}

end RelayEnv

/-- Read a message framed by its length: header block, body and the bytes behind it. -/
def readMessage (stream : Bytes) : Option (Bytes × Bytes × Bytes) :=
  (findHeadersEnd stream).bind fun headerEnd =>
    (extractContentLength (stream.take headerEnd)).bind fun expected =>
      if expected ≤ (stream.drop headerEnd).length then
        some (stream.take headerEnd, (stream.drop headerEnd).take expected,
          (stream.drop headerEnd).drop expected)
      else none

/-- A Transfer-Encoding line that announces chunks. -/
def announcesChunks (line : Str) : Prop :=
  startsWithLower line (ascii "transfer-encoding:") = true ∧
    ascii "chunked" <:+: toAsciiLowercase line

section Reframe

variable {dropped : List Str}

/-- A reader takes exactly the body that a block was reframed for. -/
theorem readMessage_reframe (named : contentLengthField ∈ dropped) (headerBlock : Bytes)
    {body : Bytes} (fits : body.length < usizeBound) (rest : Bytes) :
    readMessage (reframe dropped headerBlock body.length ++ (body ++ rest)) =
      some (reframe dropped headerBlock body.length, body, rest) := by
  have announced := extractContentLength_reframe named headerBlock body.length
  rw [if_pos fits] at announced
  rw [readMessage, findHeadersEnd_reframe, Option.bind_some, List.take_left, announced,
    Option.bind_some, List.drop_left, if_pos (by simp), List.take_left, List.drop_left]

/-- Lines of a reframed block name no dropped field. -/
theorem not_named_of_reframe {field : Str} (mem : field ∈ dropped)
    (other : ∀ bodyLen, startsWithLower (lengthLine bodyLen) field = false) (ne_nil : field ≠ [])
    {headerBlock line : Bytes} {bodyLen : Nat}
    (inside : line ∈ splitCrlf (reframe dropped headerBlock bodyLen)) :
    startsWithLower line field = false := by
  rw [splitCrlf_reframe] at inside
  rcases List.mem_append.mp inside with kept | blank
  · rcases List.mem_append.mp kept with kept | last
    · have unnamed := (mem_nonEmptyLines_of_kept kept).2
      rw [namesField, List.any_eq_false] at unnamed
      simpa using unnamed field mem
    · rw [List.mem_singleton.mp last]
      exact other bodyLen
  · obtain rfl : line = [] := by simpa using blank
    cases field with
    | nil => exact absurd rfl ne_nil
    | cons first field => rfl

/-- A block that is not chunked has no line that announces chunks. -/
theorem not_announcesChunks {headerBlock line : Bytes}
    (plain : hasTransferEncodingChunked headerBlock = false)
    (inside : line ∈ splitCrlf headerBlock) : ¬ announcesChunks line := by
  rintro ⟨field, coding⟩
  have within : toAsciiLowercase line <:+: toAsciiLowercase headerBlock := by
    refine List.IsInfix.map asciiLower ?_
    conv => rhs; rw [← joinPair_splitPair 13 10 headerBlock]
    exact infix_joinPair inside
  have named : ascii "transfer-encoding:" <+: toAsciiLowercase line := by
    simpa [startsWithLower] using field
  have chunked : hasTransferEncodingChunked headerBlock = true :=
    (hasTransferEncodingChunked_iff headerBlock).mpr
      ⟨named.isInfix.trans within, coding.trans within⟩
  rw [plain] at chunked
  cases chunked

theorem not_announcesChunks_of_reframe {headers line : Bytes} {bodyLen : Nat}
    (plain : framingOf headers ≠ .chunked)
    (inside : line ∈ splitCrlf (reframe dropped headers bodyLen)) : ¬ announcesChunks line := by
  refine not_announcesChunks ?_ inside
  by_contra chunked
  rw [Bool.not_eq_false] at chunked
  exact plain (RelayEnv.framingOf_chunked (chunked_of_chunked_reframe chunked))

end Reframe

namespace RelayEnv

variable {env : RelayEnv} {events : List RelayEvent} {outputs : List Effect}
  {status : Status RelayState RelayVerdict}

variable (env) in
/-- What a client reads of a replaced body, and what it reads behind it. -/
structure Resyncs (events : List RelayEvent) (outputs : List Effect)
    (headers after original rest rewritten block : Bytes) : Prop where
  opened : env.Opened (upstreamReads events) headers after
  message : FirstMessage (events.contains .upstreamEof) headers after original rest
  applies : env.rewriting headers original = some rewritten
  unchunked : ∀ line ∈ splitCrlf block, ¬ announcesChunks line
  sent : clientBytes outputs = block ++ (rewritten ++ (rest ++ blockedReply outputs))
  read : rewritten.length < usizeBound →
    readMessage (clientBytes outputs) = some (block, rewritten, rest ++ blockedReply outputs)

/-- A run that has replaced a body shows an image of what it has received. -/
theorem image_of_applied (execution : env.relay.Run {} events outputs status)
    (fits : env.FitsAtEof events) (applied : rewriteApplied outputs = true) :
    ∃ shown, clientBytes outputs = shown ++ blockedReply outputs ∧
      env.Image (events.contains .upstreamEof) (upstreamReads events) shown true := by
  by_cases ended : .upstreamEof ∈ events
  · have closed : events.contains .upstreamEof = true := by simpa using ended
    have image := image_of_run execution ended fits
    rw [closed]
    rwa [applied] at image
  · obtain ⟨reached, closes⟩ := reached_of_run execution
    obtain ⟨client, rewrites⟩ := clientBytes_of_run execution
    have opened : events.contains .upstreamEof = false := by simpa using ended
    rw [applied] at rewrites
    rw [opened]
    refine ⟨_, client, ?_⟩
    cases phase : (env.afterEvents events).2 with
    | awaitingHeaders pending =>
        rw [phase] at reached
        exact absurd (rewrites.trans reached.2.2.2) Bool.noConfusion
    | holdingBody headers body =>
        rw [phase] at reached
        exact absurd (rewrites.trans reached.2.2.2) Bool.noConfusion
    | passingThrough =>
        rw [phase] at reached
        rw [rewrites]
        exact reached
    | ended => exact absurd (closes.mp phase) ended

/-- A page of three bytes and the status line of the response behind it, in two reads. -/
def pipelinedPage : List RelayEvent :=
  [.upstreamRead
    ⟨ascii "HTTP/1.1 200 OK\r\nContent-Type: text/html\r\nContent-Length: 3\r\n\r\n<", by
      decide, by decide⟩,
    .upstreamRead ⟨ascii "p>HTTP/1.1 304", by decide, by decide⟩]

end RelayEnv

end PrivacyEngine
