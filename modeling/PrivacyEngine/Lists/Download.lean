import PrivacyEngine.Io
import PrivacyEngine.Mitm.Chunked
import PrivacyEngine.Wire.Strict

/-!
# Bodies of downloaded filter lists

The download of a filter list decodes chunked bodies with a loop of its own: it reads size lines
lossily, it needs no trailer, and it tells its errors apart.  Wherever the decoder of the relay
finds a message this one finds the same body, and the converse holds once the message is closed.
-/

namespace PrivacyEngine
namespace FilterList

open Wire

/-- What stops a decoding: a panic, or an error that is returned. -/
inductive Stop where
  | panic (fault : Fault)
  | fails (error : IoError)

section Steps

variable {α : Type}

def strict (step : Except Fault α) : Except Stop α := step.mapError .panic

def fail (kind : IoErrorKind) (message : String) : Except Stop α :=
  .error (.fails ⟨kind, ascii message⟩)

def okOr (value : Option α) (kind : IoErrorKind) (message : String) : Except Stop α :=
  match value with
  | some value => .ok value
  | none => fail kind message

@[simp] theorem strict_ok (a : α) : strict (.ok a) = .ok a := rfl

theorem okOr_some (a : α) (kind : IoErrorKind) (message : String) :
    okOr (some a) kind message = .ok a := rfl

end Steps

/-! ## The decoder -/

/-- The text of a size line that is parsed. -/
def sizeText (line : Str) : Str := trim (line.takeWhile (· ≠ 59))

/-- The payload of a chunk and the position behind its terminator. -/
def chunkPayload (body : Bytes) (i size : Nat) : Except Stop (Bytes × Nat) := do
  let stop ← okOr (checkedAdd i size) .invalidData "chunk size overflow"
  if body.length < stop then fail .unexpectedEof "chunked body truncated"
  else
    let payload ← strict (indexed (slice body i stop))
    let behind ← strict (plus stop 2)
    if slice body stop behind ≠ some crlf then fail .invalidData "invalid chunk terminator"
    else
      let next ← strict (plus stop 2)
      return (payload, next)

/-- What one turn of the loop has read: a size line, and behind every line but the last a chunk. -/
structure Turn where
  sizeLine : Bytes
  next : Option (Bytes × Nat)

def chunkTurn (body : Bytes) (i : Nat) : Except Stop Turn := do
  let remaining ← strict (indexed (sliceFrom body i))
  let found ← okOr (findSub crlf remaining) .invalidData "invalid chunked encoding"
  let lineEnd ← strict (plus found i)
  let sizeLine ← strict (indexed (slice body i lineEnd))
  let size ← okOr (fromStrRadix 16 (sizeText (Utf8.lossy sizeLine))) .invalidData
    "invalid chunk size"
  let behind ← strict (plus lineEnd 2)
  if size = 0 then return ⟨sizeLine, none⟩
  else
    let chunk ← chunkPayload body behind size
    return ⟨sizeLine, some chunk⟩

def decodeLoop (body : Bytes) : Nat → Bytes → Nat → Except Stop Bytes
  | 0, _, _ => .error (.panic .endless)
  | fuel + 1, out, i => do
      let turn ← chunkTurn body i
      match turn.next with
      | none => return out
      | some (payload, next) => decodeLoop body fuel (out ++ payload) next

/-- Every turn of the loop consumes bytes, so the length of the body bounds their number. -/
def decodeChunked (body : Bytes) : Except Stop Bytes := decodeLoop body (body.length + 1) [] 0

/-- The size lines that the loop reads. -/
def sizeLinesRead (body : Bytes) : Nat → Nat → List Bytes
  | 0, _ => []
  | fuel + 1, i =>
      match chunkTurn body i with
      | .error _ => []
      | .ok turn =>
          turn.sizeLine ::
            match turn.next with
            | none => []
            | some (_, next) => sizeLinesRead body fuel next

def sizeLines (body : Bytes) : List Bytes := sizeLinesRead body (body.length + 1) 0

/-! ## One turn -/

section Turn

variable {body : Bytes} {i : Nat}

/-- A chunk is cut out as the relay cuts it out, and nothing panics on the way. -/
theorem chunkPayload_cases (bounded : body.length < sliceBound) (size : Nat) :
    (∃ error, chunkPayload body i size = .error (.fails error) ∧ readChunkData body i size = none) ∨
      ∃ chunk, chunkPayload body i size = .ok chunk ∧ readChunkData body i size = some chunk := by
  rw [chunkPayload, readChunkData]
  cases adds : checkedAdd i size with
  | none => exact .inl ⟨_, rfl, rfl⟩
  | some stop =>
      have start_le : i ≤ stop := by
        unfold checkedAdd at adds
        split at adds <;> cases adds
        omega
      simp only [okOr_some, ok_bind, Option.bind_eq_bind, Option.bind_some]
      by_cases truncated : body.length < stop
      · rw [if_pos truncated]
        refine .inl ⟨_, rfl, ?_⟩
        cases adds_two : checkedAdd stop 2 with
        | none => rfl
        | some crlfEnd =>
            unfold checkedAdd at adds_two
            split at adds_two <;> cases adds_two
            exact if_pos (by omega)
      · have payload : slice body i stop = some _ := slice_eq_some start_le (by omega)
        have behind : plus stop 2 = .ok (stop + 2) := plus_of_le (by omega) bounded
        have adds_two : checkedAdd stop 2 = some (stop + 2) := if_pos (by
          simp only [usizeBound, UInt64.size, sliceBound] at *
          omega)
        rw [if_neg truncated]
        simp only [payload, behind, adds_two, indexed, strict_ok, ok_bind, Option.bind_some]
        by_cases cut : body.length < stop + 2
        · have nothing : slice body stop (stop + 2) = none := if_neg (by omega)
          rw [if_pos cut, nothing]
          exact .inl ⟨_, rfl, rfl⟩
        · have close : slice body stop (stop + 2) = some _ := slice_eq_some (by omega) (by omega)
          rw [if_neg cut, close, Option.bind_some]
          by_cases closes : (body.take (stop + 2)).drop stop = crlf
          · rw [closes]
            exact .inr ⟨_, rfl, rfl⟩
          · rw [if_pos (by simpa using closes), if_pos closes]
            exact .inl ⟨_, rfl, rfl⟩

/-- One turn without the steps that could panic. -/
theorem chunkTurn_eq (bounded : body.length < sliceBound) (in_range : i ≤ body.length) :
    chunkTurn body i =
      (okOr (findSub crlf (body.drop i)) .invalidData "invalid chunked encoding" >>= fun found =>
        okOr (fromStrRadix 16 (sizeText (Utf8.lossy ((body.drop i).take found)))) .invalidData
            "invalid chunk size" >>= fun size =>
          if size = 0 then .ok ⟨(body.drop i).take found, none⟩
          else
            chunkPayload body (i + (found + 2)) size >>= fun chunk =>
              .ok ⟨(body.drop i).take found, some chunk⟩) := by
  rw [chunkTurn, sliceFrom_eq_some in_range]
  simp only [indexed, strict_ok, ok_bind]
  cases found : findSub crlf (body.drop i) with
  | none => rfl
  | some lineAt =>
      have bound := findSub_bound crlf_ne_nil found
      rw [List.length_drop, show crlf.length = 2 from rfl] at bound
      have line_end : plus lineAt i = .ok (lineAt + i) := plus_of_le (by omega) bounded
      have line : slice body i (lineAt + i) = some ((body.drop i).take lineAt) := by
        rw [slice_eq_some (by omega) (by omega), List.drop_take, Nat.add_sub_cancel]
      have behind : plus (lineAt + i) 2 = .ok (lineAt + i + 2) := plus_of_le (by omega) bounded
      simp only [okOr_some, ok_bind, line_end, line, behind, strict_ok]
      rw [show lineAt + i + 2 = i + (lineAt + 2) by omega]
      rfl

theorem readChunkSize_eq_some_iff {size next : Nat} :
    readChunkSize body i = some (size, next) ↔
      i ≤ body.length ∧ ∃ found, findSub crlf (body.drop i) = some found ∧
        Utf8.valid ((body.drop i).take found) = true ∧
        fromStrRadix 16 (sizeText ((body.drop i).take found)) = some size ∧
        next = i + (found + 2) := by
  simp only [readChunkSize, sliceFrom, fromUtf8, sizeText, Option.bind_eq_bind,
    Option.bind_eq_some_iff, Option.ite_none_right_eq_some, Option.some.injEq, Prod.mk.injEq]
  constructor
  · rintro ⟨_, ⟨in_range, rfl⟩, found, occurs, _, ⟨valid, rfl⟩, _, parsed, rfl, rfl⟩
    exact ⟨in_range, found, occurs, valid, parsed, rfl⟩
  · rintro ⟨in_range, found, occurs, valid, parsed, rfl⟩
    exact ⟨_, ⟨in_range, rfl⟩, found, occurs, _, ⟨valid, rfl⟩, _, parsed, rfl, rfl⟩

/-- A size line that the relay reads is read here too. -/
theorem chunkTurn_of_readChunkSize (bounded : body.length < sliceBound) {size next : Nat}
    (reads : readChunkSize body i = some (size, next)) :
    ∃ line, chunkTurn body i =
      if size = 0 then .ok ⟨line, none⟩
      else chunkPayload body next size >>= fun chunk => .ok ⟨line, some chunk⟩ := by
  obtain ⟨in_range, found, occurs, valid, parsed, rfl⟩ := readChunkSize_eq_some_iff.mp reads
  refine ⟨(body.drop i).take found, ?_⟩
  rw [chunkTurn_eq bounded in_range, occurs, okOr_some, ok_bind, Utf8.lossy_of_valid valid, parsed,
    okOr_some, ok_bind]

/-- What a turn has read, in the terms of the relay's decoder. -/
theorem chunkTurn_ok (bounded : body.length < sliceBound) (in_range : i ≤ body.length) {turn : Turn}
    (turns : chunkTurn body i = .ok turn) :
    ∃ found size, findSub crlf (body.drop i) = some found ∧
      turn.sizeLine = (body.drop i).take found ∧
      fromStrRadix 16 (sizeText (Utf8.lossy turn.sizeLine)) = some size ∧
      (size = 0 ∧ turn.next = none ∨
        size ≠ 0 ∧ ∃ chunk, readChunkData body (i + (found + 2)) size = some chunk ∧
          turn.next = some chunk) := by
  rw [chunkTurn_eq bounded in_range] at turns
  cases found : findSub crlf (body.drop i) with
  | none =>
      rw [found] at turns
      cases turns
  | some lineAt =>
      rw [found, okOr_some, ok_bind] at turns
      cases parsed : fromStrRadix 16 (sizeText (Utf8.lossy ((body.drop i).take lineAt))) with
      | none =>
          rw [parsed] at turns
          cases turns
      | some size =>
          rw [parsed, okOr_some, ok_bind] at turns
          split at turns
          · rename_i last
            cases turns
            exact ⟨lineAt, size, rfl, rfl, parsed, .inl ⟨last, rfl⟩⟩
          · rename_i more
            rcases chunkPayload_cases (i := i + (lineAt + 2)) bounded size with
              ⟨error, fails, -⟩ | ⟨chunk, reads, read⟩
            · rw [fails] at turns
              cases turns
            · rw [reads, ok_bind] at turns
              cases turns
              exact ⟨lineAt, size, rfl, rfl, parsed, .inr ⟨more, chunk, read, rfl⟩⟩

/-- A turn ends in an error of the code or goes on, but never in a panic. -/
theorem chunkTurn_no_panic (bounded : body.length < sliceBound) (in_range : i ≤ body.length)
    (fault : Fault) : chunkTurn body i ≠ .error (.panic fault) := by
  rw [chunkTurn_eq bounded in_range]
  cases findSub crlf (body.drop i) with
  | none =>
      intro panics
      cases panics
  | some lineAt =>
      rw [okOr_some, ok_bind]
      cases fromStrRadix 16 (sizeText (Utf8.lossy ((body.drop i).take lineAt))) with
      | none =>
          intro panics
          cases panics
      | some size =>
          rw [okOr_some, ok_bind]
          split
          · intro panics
            cases panics
          · rcases chunkPayload_cases (i := i + (lineAt + 2)) bounded size with
              ⟨error, fails, -⟩ | ⟨chunk, reads, -⟩
            · rw [fails]
              intro panics
              cases panics
            · rw [reads]
              intro panics
              cases panics

/-- The position behind a turn that goes on is in range and further on. -/
theorem next_of_turn (bounded : body.length < sliceBound) (in_range : i ≤ body.length) {turn : Turn}
    (turns : chunkTurn body i = .ok turn) {payload : Bytes} {next : Nat}
    (goes_on : turn.next = some (payload, next)) : i < next ∧ next ≤ body.length := by
  obtain ⟨found, size, -, -, -, ⟨-, ends⟩ | ⟨-, chunk, reads, goes_on'⟩⟩ :=
    chunkTurn_ok bounded in_range turns
  · rw [ends] at goes_on
    cases goes_on
  · rw [goes_on'] at goes_on
    cases goes_on
    obtain ⟨next_ge, next_le, -⟩ := readChunkData_spec reads
    omega

end Turn

/-! ## The loop -/

section Loop

variable {body : Bytes}

/-- The closing of a message is the end of a trailer, wherever the trailer starts. -/
theorem readTrailer_closed {i : Nat} (in_range : i ≤ body.length) :
    ∃ stop, readTrailer (body ++ crlfcrlf) i = some stop := by
  have length_closed : (body ++ crlfcrlf).length = body.length + 4 := List.length_append
  have next : slice (body ++ crlfcrlf) i (i + 2) = some _ :=
    slice_eq_some (Nat.le_add_right _ _) (by omega)
  have occurs : (findSub crlfcrlf ((body ++ crlfcrlf).drop i)).isSome = true := by
    rw [isSome_findSub_iff crlfcrlf_ne_nil, List.drop_append_of_le_length in_range]
    exact (List.suffix_append _ _).isInfix
  obtain ⟨found, occurs⟩ := Option.isSome_iff_exists.mp occurs
  rw [readTrailer, next, Option.bind_eq_bind, Option.bind_some]
  split
  · exact ⟨_, rfl⟩
  · have trailer : sliceFrom (body ++ crlfcrlf) i = some _ := sliceFrom_eq_some (by omega)
    simp only [trailer, occurs, Option.bind_eq_bind, Option.bind_some]
    exact ⟨_, rfl⟩

theorem decodeLoop_no_panic (bounded : body.length < sliceBound) {fuel i : Nat} (out : Bytes)
    (in_range : i ≤ body.length) (enough : body.length < fuel + i) (fault : Fault) :
    decodeLoop body fuel out i ≠ .error (.panic fault) := by
  induction fuel generalizing out i with
  | zero => omega
  | succ fuel ih =>
      rw [decodeLoop]
      cases turns : chunkTurn body i with
      | error stop =>
          intro panics
          cases panics
          exact chunkTurn_no_panic bounded in_range fault turns
      | ok turn =>
          rw [ok_bind]
          cases goes_on : turn.next with
          | none =>
              intro panics
              cases panics
          | some chunk =>
              obtain ⟨payload, next⟩ := chunk
              obtain ⟨next_gt, next_le⟩ := next_of_turn bounded in_range turns goes_on
              exact ih (out ++ payload) next_le (by omega)

/-- Where the relay's loop finds a body, this loop finds the same one. -/
theorem decodeLoop_of_decodeChunks (bounded : body.length < sliceBound) {fuel i : Nat}
    {out result : Bytes} {stop : Nat}
    (decodes : decodeChunks body fuel out i = some (result, stop)) :
    decodeLoop body fuel out i = .ok result := by
  induction fuel generalizing out i with
  | zero => cases decodes
  | succ fuel ih =>
      rw [decodeChunks] at decodes
      cases reads : readChunkSize body i with
      | none => simp [reads] at decodes
      | some read =>
          obtain ⟨size, next⟩ := read
          obtain ⟨line, turns⟩ := chunkTurn_of_readChunkSize bounded reads
          simp only [reads] at decodes
          rw [decodeLoop, turns]
          by_cases last : size = 0
          · rw [if_pos last] at decodes
            obtain ⟨at_, -, found⟩ := Option.map_eq_some_iff.mp decodes
            obtain ⟨rfl, -⟩ := Prod.mk.inj found
            rw [if_pos last]
            rfl
          · rw [if_neg last] at decodes
            rw [if_neg last]
            rcases chunkPayload_cases (i := next) bounded size with
              ⟨error, -, nothing⟩ | ⟨chunk, cuts, chunk_read⟩
            · simp [nothing] at decodes
            · simp only [chunk_read] at decodes
              rw [cuts]
              exact ih decodes

/-- Where this loop finds a body behind well-formed size lines, the relay's loop finds the same one
in the closed message. -/
theorem decodeChunks_of_decodeLoop (bounded : body.length < sliceBound) {fuel i : Nat}
    {out result : Bytes} (in_range : i ≤ body.length)
    (decodes : decodeLoop body fuel out i = .ok result)
    (well_formed : ∀ line ∈ sizeLinesRead body fuel i, Utf8.valid line = true) :
    ∃ stop, decodeChunks (body ++ crlfcrlf) fuel out i = some (result, stop) := by
  induction fuel generalizing out i with
  | zero => cases decodes
  | succ fuel ih =>
      rw [decodeLoop] at decodes
      rw [sizeLinesRead] at well_formed
      cases turns : chunkTurn body i with
      | error stop =>
          rw [turns] at decodes
          cases decodes
      | ok turn =>
          rw [turns, ok_bind] at decodes
          rw [turns] at well_formed
          obtain ⟨line_valid, rest_valid⟩ := List.forall_mem_cons.mp well_formed
          obtain ⟨found, size, occurs, line, parsed, ends⟩ := chunkTurn_ok bounded in_range turns
          rw [Utf8.lossy_of_valid line_valid, line] at parsed
          rw [line] at line_valid
          have reads : readChunkSize body i = some (size, i + (found + 2)) :=
            readChunkSize_eq_some_iff.mpr ⟨in_range, found, occurs, line_valid, parsed, rfl⟩
          obtain ⟨-, behind_le, size_cut⟩ := readChunkSize_spec reads
          have size_read := size_cut body.length crlfcrlf behind_le le_rfl
          rw [List.take_length] at size_read
          rw [decodeChunks, size_read]
          rcases ends with ⟨last, ends⟩ | ⟨more, chunk, chunk_read, goes_on⟩
          · rw [ends] at decodes
            cases decodes
            obtain ⟨stop, closed⟩ := readTrailer_closed behind_le
            simp only [if_pos last, closed]
            exact ⟨stop, rfl⟩
          · obtain ⟨payload, next⟩ := chunk
            obtain ⟨-, next_le⟩ := next_of_turn bounded in_range turns goes_on
            obtain ⟨-, -, chunk_cut⟩ := readChunkData_spec chunk_read
            have chunk_read' := chunk_cut body.length crlfcrlf next_le le_rfl
            rw [List.take_length] at chunk_read'
            rw [goes_on] at decodes rest_valid
            simp only [if_neg more, chunk_read']
            exact ih next_le decodes rest_valid

end Loop

/-- The two decoders agree: this one finds what the relay's finds, the relay's finds in the closed
message what this one finds behind well-formed size lines, and this one never panics. -/
theorem decoders_agree (body : Slice) :
    (∀ result stop, tryDecodeChunkedMessage body.val = some (result, stop) →
      decodeChunked body.val = .ok result) ∧
    (∀ result, decodeChunked body.val = .ok result →
      (∀ line ∈ sizeLines body.val, Utf8.valid line = true) →
      ∃ stop, tryDecodeChunkedMessage (body.val ++ crlfcrlf) = some (result, stop)) ∧
    ∀ fault, decodeChunked body.val ≠ .error (.panic fault) := by
  refine ⟨fun result stop decodes => decodeLoop_of_decodeChunks body.property decodes,
    fun result decodes well_formed => ?_,
    decodeLoop_no_panic body.property [] (Nat.zero_le _) (Nat.lt_succ_self _)⟩
  obtain ⟨stop, found⟩ :=
    decodeChunks_of_decodeLoop body.property (Nat.zero_le _) decodes well_formed
  have cut := (decodeChunks_spec found).2.2 ((body.val ++ crlfcrlf).drop stop)
    ((body.val ++ crlfcrlf).length + 1) (by
      have stop_le := (decodeChunks_spec found).2.1
      omega)
  rw [List.take_append_drop] at cut
  exact ⟨stop, cut⟩

/-- A body without trailer: only the closed message is complete for the relay. -/
theorem decoders_agree_unclosed :
    tryDecodeChunkedMessage (ascii "2;x\r\nab\r\n0\r\n") = none ∧
      decodeChunked (ascii "2;x\r\nab\r\n0\r\n") = .ok (ascii "ab") ∧
      ∃ stop, tryDecodeChunkedMessage (ascii "2;x\r\nab\r\n0\r\n" ++ crlfcrlf) =
        some (ascii "ab", stop) :=
  ⟨by decide, rfl, (decoders_agree ⟨ascii "2;x\r\nab\r\n0\r\n", by decide⟩).2.1 _ rfl (by decide)⟩

end FilterList
end PrivacyEngine
