import PrivacyEngine.Mitm.Chunked
import PrivacyEngine.Wire.Decimal
import PrivacyEngine.Wire.Lines
import PrivacyEngine.Wire.Strict

/-!
# Chunked messages

What a sender may write, and the decoder on it: it reads every message back, it finds nothing in a
message that is cut short, and what it has found stays when more bytes arrive.
-/

namespace PrivacyEngine

open Wire

/-! ## Messages -/

/-- A size line: the size in any spelling, and an extension. -/
structure SizeLine (size : Nat) where
  digits : Str
  extension : Option Str
  spells : Spells 16 digits size
  extension_text : ∀ text ∈ extension, Utf8.valid text = true ∧ PairFree 13 10 text

def SizeLine.bytes {size : Nat} (line : SizeLine size) : Bytes :=
  match line.extension with
  | some text => line.digits ++ 59 :: text
  | none => line.digits

structure Chunk where
  data : Bytes
  nonempty : data ≠ []
  line : SizeLine data.length

def Chunk.bytes (chunk : Chunk) : Bytes := chunk.line.bytes ++ crlf ++ chunk.data ++ crlf

def encodeChunked (chunks : List Chunk) (last : SizeLine 0) (trailers : List Bytes) : Bytes :=
  chunks.flatMap Chunk.bytes ++ (last.bytes ++ crlf ++ (trailers.flatMap (· ++ crlf) ++ crlf))

/-- A chunked message with its trailer lines, which has to fit the memory. -/
structure ChunkedMessage where
  chunks : List Chunk
  last : SizeLine 0
  trailers : List Bytes
  trailers_filled : ∀ line ∈ trailers, line ≠ []
  trailers_free : ∀ line ∈ trailers, PairFree 13 10 line
  fits : (encodeChunked chunks last trailers).length < usizeBound

namespace ChunkedMessage

def bytes (message : ChunkedMessage) : Bytes :=
  encodeChunked message.chunks message.last message.trailers

def body (message : ChunkedMessage) : Bytes := message.chunks.flatMap Chunk.data

end ChunkedMessage

/-! ## Size lines -/

namespace SizeLine

variable {size : Nat} (line : SizeLine size)

theorem digits_ascii : ∀ b ∈ line.digits, b < 0x80 := fun _ mem => (line.spells.digit mem).1.2

theorem digits_valid : Utf8.valid line.digits = true :=
  Utf8.lossy_eq_self_iff.mp (lossy_of_ascii line.digits_ascii)

theorem bytes_valid : Utf8.valid line.bytes = true := by
  unfold bytes
  split
  · rename_i text extended
    rw [Utf8.valid_append_ascii _ (by decide), line.digits_valid, Bool.true_and]
    exact (line.extension_text text extended).1
  · exact line.digits_valid

theorem bytes_free : PairFree 13 10 line.bytes := by
  have no_cr : 13 ∉ line.digits := fun mem =>
    absurd (line.spells.digit mem).1.1 (by decide)
  rw [pairFree_iff]
  unfold bytes
  split
  · rename_i text extended
    intro left right eq
    rcases List.append_eq_append_iff.mp eq with ⟨gap, left_eq, rest⟩ | ⟨gap, digits_eq, rest⟩
    · cases gap with
      | nil => simp at rest
      | cons b gap =>
          obtain ⟨-, text_eq⟩ := List.cons.inj rest
          exact pairFree_iff.mp (line.extension_text text extended).2 gap right text_eq
    · cases gap with
      | nil => simp at rest
      | cons b gap =>
          obtain ⟨rfl, -⟩ := List.cons.inj rest
          exact no_cr (by rw [digits_eq]; simp)
  · intro left right eq
    exact no_cr (by rw [eq]; simp)

theorem takeWhile_bytes : line.bytes.takeWhile (· ≠ 59) = line.digits := by
  have keeps : ∀ b ∈ line.digits, (decide (b ≠ 59)) = true := fun b mem =>
    decide_eq_true (line.spells.digit mem).2.2
  unfold bytes
  split
  · rw [List.takeWhile_append_of_pos keeps]
    simp
  · rw [← List.append_nil line.digits, List.takeWhile_append_of_pos (by simpa using keeps)]
    rfl

theorem read_bytes (fits : size < usizeBound) :
    fromStrRadix 16 (trim (line.bytes.takeWhile (· ≠ 59))) = some size := by
  rw [line.takeWhile_bytes, trim_of_solid fun b mem => (line.spells.digit mem).1]
  exact line.spells.fromStrRadix (by decide) fits

/-- The decoder reads a size line, wherever it stands. -/
theorem readChunkSize_bytes (fits : size < usizeBound) {data rest : Bytes} {pos : Nat}
    (stands : Stands data pos (line.bytes ++ crlf ++ rest)) :
    readChunkSize data pos = some (size, pos + (line.bytes ++ crlf).length) := by
  have found : findSub crlf (line.bytes ++ crlf ++ rest) = some line.bytes.length := by
    rw [List.append_assoc]
    exact findSub_crlf_of_pairFree line.bytes_free rest
  have taken : (line.bytes ++ crlf ++ rest).take line.bytes.length = line.bytes := by
    rw [List.append_assoc, List.take_left]
  simp only [readChunkSize, stands.sliceFrom, Option.bind_eq_bind, Option.bind_some, found, taken,
    fromUtf8, line.bytes_valid, if_true, line.read_bytes fits, List.length_append]
  rfl

end SizeLine

/-! ## Chunks and trailers -/

theorem readChunkData_bytes {data payload rest : Bytes} {pos : Nat}
    (stands : Stands data pos (payload ++ crlf ++ rest))
    (fits : pos + (payload ++ crlf).length < usizeBound) :
    readChunkData data pos payload.length = some (payload, pos + (payload ++ crlf).length) := by
  have length_crlf : crlf.length = 2 := rfl
  have in_range := stands.length_eq
  rw [List.append_assoc] at stands
  have next := stands.shift.slice
  rw [length_crlf] at next
  simp only [List.length_append, length_crlf, ← Nat.add_assoc] at in_range fits ⊢
  have adds : checkedAdd pos payload.length = some (pos + payload.length) := if_pos (by omega)
  have adds_two : checkedAdd (pos + payload.length) 2 = some (pos + payload.length + 2) :=
    if_pos (by omega)
  have reaches : ¬ data.length < pos + payload.length + 2 := by omega
  simp only [readChunkData, adds, adds_two, Option.bind_eq_bind, Option.bind_some, if_neg reaches,
    stands.slice, next, ne_eq, not_true_eq_false, if_false]

theorem readTrailer_bytes {trailers : List Bytes} (filled : ∀ line ∈ trailers, line ≠ [])
    (free : ∀ line ∈ trailers, PairFree 13 10 line) {data rest : Bytes} {pos : Nat}
    (stands : Stands data pos (trailers.flatMap (· ++ crlf) ++ crlf ++ rest)) :
    readTrailer data pos = some (pos + (trailers.flatMap (· ++ crlf) ++ crlf).length) := by
  cases trailers with
  | nil =>
      have next : slice data pos (pos + 2) = some crlf := stands.slice
      rw [readTrailer, next]
      rfl
  | cons line trailers =>
      have line_free := free line List.mem_cons_self
      -- the first two bytes are no line end, since the line is neither empty nor starts with one
      obtain ⟨x, y, more, starts, other⟩ : ∃ x y more,
          (line :: trailers).flatMap (· ++ crlf) ++ crlf ++ rest = [x, y] ++ more ∧
            [x, y] ≠ crlf := by
        cases line with
        | nil => exact absurd rfl (filled [] List.mem_cons_self)
        | cons x line =>
            cases line with
            | nil => exact ⟨x, 13, _, rfl, by simp [crlf]⟩
            | cons y line =>
                refine ⟨x, y, _, rfl, fun same => line_free.1 ?_⟩
                obtain ⟨rfl, tail⟩ := List.cons.inj same
                exact ⟨rfl, (List.cons.inj tail).1⟩
      have next : slice data pos (pos + 2) = some [x, y] := (starts ▸ stands).slice
      have closed := closeHeaders_eq_flatMap (line :: trailers) (List.cons_ne_nil _ _)
      have found : findSub crlfcrlf ((line :: trailers).flatMap (· ++ crlf) ++ crlf ++ rest) =
          some (joinCrlf (line :: trailers)).length := by
        rw [← closed]
        exact findSub_crlfcrlf_joinPair (List.cons_ne_nil _ _)
          (fun other mem => filled other (List.mem_cons_of_mem _ mem)) free rest
      have length_eq : ((line :: trailers).flatMap (· ++ crlf) ++ crlf).length =
          (joinCrlf (line :: trailers)).length + 4 := by
        rw [← closed, closeHeaders, List.length_append]
        rfl
      simp only [readTrailer, next, Option.bind_eq_bind, Option.bind_some, if_neg other,
        stands.sliceFrom, found, length_eq]

/-! ## The loop -/

/-- The decoder reads the chunks of a message one after the other. -/
theorem decodeChunks_encoded {trailers : List Bytes} (filled : ∀ line ∈ trailers, line ≠ [])
    (free : ∀ line ∈ trailers, PairFree 13 10 line) (chunks : List Chunk) (last : SizeLine 0)
    {data rest : Bytes} {pos fuel : Nat} (result : Bytes)
    (stands : Stands data pos (encodeChunked chunks last trailers ++ rest))
    (enough : chunks.length < fuel)
    (fits : pos + (encodeChunked chunks last trailers).length < usizeBound) :
    decodeChunks data fuel result pos =
      some (result ++ chunks.flatMap Chunk.data,
        pos + (encodeChunked chunks last trailers).length) := by
  induction chunks generalizing pos result fuel with
  | nil =>
      obtain ⟨fuel, rfl⟩ := Nat.exists_eq_succ_of_ne_zero (by omega : fuel ≠ 0)
      have whole : encodeChunked [] last trailers ++ rest =
          last.bytes ++ crlf ++ (trailers.flatMap (· ++ crlf) ++ crlf ++ rest) := by
        simp [encodeChunked]
      have length_eq : (encodeChunked [] last trailers).length =
          (last.bytes ++ crlf).length + (trailers.flatMap (· ++ crlf) ++ crlf).length := by
        rw [← List.length_append]
        rfl
      rw [whole] at stands
      have trailer := readTrailer_bytes filled free stands.shift
      rw [decodeChunks, last.readChunkSize_bytes (by decide) stands]
      simp only [if_true, trailer, Option.map_some, List.flatMap_nil, List.append_nil, length_eq,
        Nat.add_assoc]
  | cons chunk chunks ih =>
      obtain ⟨fuel, rfl⟩ := Nat.exists_eq_succ_of_ne_zero (by omega : fuel ≠ 0)
      have whole : encodeChunked (chunk :: chunks) last trailers ++ rest =
          chunk.line.bytes ++ crlf ++ (chunk.data ++ crlf ++
            (encodeChunked chunks last trailers ++ rest)) := by
        simp [encodeChunked, Chunk.bytes]
      have length_eq : (encodeChunked (chunk :: chunks) last trailers).length =
          (chunk.line.bytes ++ crlf).length + ((chunk.data ++ crlf).length +
            (encodeChunked chunks last trailers).length) := by
        simp only [encodeChunked, Chunk.bytes, List.flatMap_cons, List.length_append]
        omega
      have filled_data : chunk.data.length ≠ 0 := fun empty =>
        chunk.nonempty (List.length_eq_zero_iff.mp empty)
      have size_fits : chunk.data.length < usizeBound := by
        have within : chunk.data.length ≤ (chunk.data ++ crlf).length := by simp
        omega
      rw [whole] at stands
      rw [length_eq] at fits ⊢
      have chunk_read := readChunkData_bytes stands.shift (by omega)
      have later := ih (result ++ chunk.data) stands.shift.shift
        (Nat.lt_of_succ_lt_succ enough) (by omega)
      rw [decodeChunks, chunk.line.readChunkSize_bytes size_fits stands]
      simp only [if_neg filled_data, chunk_read, later]
      rw [List.flatMap_cons, List.append_assoc, Nat.add_assoc, Nat.add_assoc]

namespace ChunkedMessage

variable (message : ChunkedMessage)

/-- A message is read back, whatever follows it. -/
theorem tryDecode_bytes (rest : Bytes) :
    tryDecodeChunkedMessage (message.bytes ++ rest) =
      some (message.body, message.bytes.length) := by
  have decodes := decodeChunks_encoded message.trailers_filled message.trailers_free message.chunks
    message.last [] (.start (message.bytes ++ rest)) (Nat.lt_succ_self _)
    (by rw [Nat.zero_add]; exact message.fits)
  rw [List.nil_append, Nat.zero_add] at decodes
  have cut := (decodeChunks_spec decodes).2.2 rest ((message.bytes ++ rest).length + 1) (by
    rw [List.length_append, bytes]
    omega)
  rwa [show (message.bytes ++ rest).take (encodeChunked message.chunks message.last
    message.trailers).length = message.bytes from List.take_left] at cut

/-- Nothing is found in a message that is cut short. -/
theorem tryDecode_cut_short {part : Bytes} (cut : part <+: message.bytes)
    (short : part ≠ message.bytes) : tryDecodeChunkedMessage part = none := by
  cases decodes : tryDecodeChunkedMessage part with
  | none => rfl
  | some found =>
      obtain ⟨body, consumed⟩ := found
      obtain ⟨tail, whole⟩ := cut
      have extended := tryDecode_append decodes tail
      have read := message.tryDecode_bytes []
      rw [List.append_nil, ← whole, extended] at read
      obtain ⟨-, all⟩ := Prod.mk.inj (Option.some.inj read)
      have bound := tryDecode_consumed_le decodes
      rw [all, List.length_append] at bound
      have nothing : tail = [] := List.length_eq_zero_iff.mp (by omega)
      rw [nothing, List.append_nil] at whole
      exact absurd whole short

end ChunkedMessage

/-! ## The decoder does not panic -/

def readChunkSizeStrict (data : Bytes) (pos : Nat) : Except Fault (Option (Nat × Nat)) :=
  match sliceFrom data pos with
  | none => .ok none
  | some remaining =>
      match findSub crlf remaining with
      | none => .ok none
      | some crlfAt => do
          let sizeLine ← indexed (sliceTo remaining crlfAt)
          match (fromUtf8 sizeLine).bind fun line =>
              fromStrRadix 16 (trim (line.takeWhile (· ≠ 59))) with
          | none => return none
          | some chunkSize =>
              let next ← plus pos (← plus crlfAt 2)
              return some (chunkSize, next)

def readTrailerStrict (data : Bytes) (pos : Nat) : Except Fault (Option Nat) := do
  let afterNext ← plus pos 2
  match slice data pos afterNext with
  | none => return none
  | some next =>
      if next = crlf then return some (← plus pos 2)
      else
        match sliceFrom data pos with
        | none => return none
        | some trailer =>
            match findSub crlfcrlf trailer with
            | none => return none
            | some stop => return some (← plus pos (← plus stop 4))

def readChunkDataStrict (data : Bytes) (pos chunkSize : Nat) :
    Except Fault (Option (Bytes × Nat)) :=
  match checkedAdd pos chunkSize with
  | none => .ok none
  | some chunkEnd =>
      match checkedAdd chunkEnd 2 with
      | none => .ok none
      | some crlfEnd =>
          if data.length < crlfEnd then .ok none
          else do
            let payload ← indexed (slice data pos chunkEnd)
            let close ← indexed (slice data chunkEnd crlfEnd)
            return if close ≠ crlf then none else some (payload, crlfEnd)

/-- The decoding loop with its indexings and additions as they can panic. -/
def decodeChunksStrict (data : Bytes) : Nat → Bytes → Nat → Except Fault (Option (Bytes × Nat))
  | 0, _, _ => .error .endless
  | fuel + 1, result, pos => do
      match ← readChunkSizeStrict data pos with
      | none => return none
      | some (chunkSize, pos) =>
          if chunkSize = 0 then
            return (← readTrailerStrict data pos).map fun stop => (result, stop)
          else
            match ← readChunkDataStrict data pos chunkSize with
            | none => return none
            | some (payload, next) => decodeChunksStrict data fuel (result ++ payload) next

def tryDecodeChunkedStrict (data : Bytes) : Except Fault (Option (Bytes × Nat)) :=
  decodeChunksStrict data (data.length + 1) [] 0

section Strict

variable {data : Bytes}

theorem readChunkSizeStrict_eq (bounded : data.length < sliceBound) (pos : Nat) :
    readChunkSizeStrict data pos = .ok (readChunkSize data pos) := by
  rw [readChunkSizeStrict, readChunkSize]
  cases from_pos : sliceFrom data pos with
  | none => rfl
  | some remaining =>
      have reaches : pos + remaining.length ≤ data.length := by
        unfold sliceFrom at from_pos
        split at from_pos <;> cases from_pos
        rw [List.length_drop]
        omega
      simp only [Option.bind_eq_bind, Option.bind_some]
      cases found : findSub crlf remaining with
      | none => rfl
      | some crlfAt =>
          have bound := findSub_bound crlf_ne_nil found
          have line : sliceTo remaining crlfAt = some (remaining.take crlfAt) :=
            sliceTo_eq_some (by omega)
          have ends : plus crlfAt 2 = .ok (crlfAt + 2) := plus_of_le (by omega) bounded
          have behind : plus pos (crlfAt + 2) = .ok (pos + (crlfAt + 2)) :=
            plus_of_le (by omega) bounded
          simp only [line, indexed, Option.bind_some, ok_bind, ends, behind]
          cases fromUtf8 (remaining.take crlfAt) with
          | none => rfl
          | some text =>
              simp only [Option.bind_some]
              cases fromStrRadix 16 (trim (text.takeWhile (· ≠ 59))) with
              | none => rfl
              | some chunkSize => rfl

theorem readTrailerStrict_eq (bounded : data.length < sliceBound) {pos : Nat}
    (in_range : pos ≤ data.length) :
    readTrailerStrict data pos = .ok (readTrailer data pos) := by
  have two : plus pos 2 = .ok (pos + 2) := plus_of_le (by omega) bounded
  rw [readTrailerStrict, readTrailer]
  simp only [two, ok_bind]
  cases slice data pos (pos + 2) with
  | none => rfl
  | some next =>
      simp only [Option.bind_eq_bind, Option.bind_some]
      split
      · rfl
      · have trailer : sliceFrom data pos = some (data.drop pos) := sliceFrom_eq_some in_range
        simp only [trailer, Option.bind_some]
        cases found : findSub crlfcrlf (data.drop pos) with
        | none => rfl
        | some stop =>
            have bound := findSub_bound crlfcrlf_ne_nil found
            rw [List.length_drop, show crlfcrlf.length = 4 from rfl] at bound
            have four : plus stop 4 = .ok (stop + 4) := plus_of_le (by omega) bounded
            have behind : plus pos (stop + 4) = .ok (pos + (stop + 4)) :=
              plus_of_le (by omega) bounded
            simp only [four, behind, ok_bind]
            rfl

theorem readChunkDataStrict_eq (pos chunkSize : Nat) :
    readChunkDataStrict data pos chunkSize = .ok (readChunkData data pos chunkSize) := by
  rw [readChunkDataStrict, readChunkData]
  simp only [Option.bind_eq_bind]
  cases adds : checkedAdd pos chunkSize with
  | none => rfl
  | some chunkEnd =>
      simp only [Option.bind_some]
      cases adds_two : checkedAdd chunkEnd 2 with
      | none => rfl
      | some crlfEnd =>
          have chunk_end : pos ≤ chunkEnd := by
            unfold checkedAdd at adds
            split at adds <;> cases adds
            omega
          have crlf_end : chunkEnd ≤ crlfEnd := by
            unfold checkedAdd at adds_two
            split at adds_two <;> cases adds_two
            omega
          simp only [Option.bind_some]
          split
          · rfl
          · have payload : slice data pos chunkEnd = some _ := slice_eq_some chunk_end (by omega)
            have close : slice data chunkEnd crlfEnd = some _ := slice_eq_some crlf_end (by omega)
            simp only [payload, close, indexed, Option.bind_some, ok_bind]
            split <;> rfl

/-- Every iteration consumes bytes, and no step panics. -/
theorem decodeChunksStrict_eq (bounded : data.length < sliceBound) {fuel pos : Nat}
    (result : Bytes) (in_range : pos ≤ data.length)
    (enough : data.length < fuel + pos) :
    decodeChunksStrict data fuel result pos = .ok (decodeChunks data fuel result pos) := by
  induction fuel generalizing result pos with
  | zero => omega
  | succ fuel ih =>
      rw [decodeChunksStrict, decodeChunks, readChunkSizeStrict_eq bounded]
      cases size : readChunkSize data pos with
      | none => rfl
      | some read =>
          obtain ⟨chunkSize, next⟩ := read
          obtain ⟨next_ge, next_le, -⟩ := readChunkSize_spec size
          change (if chunkSize = 0 then _ else _) = _
          simp only
          split
          · rw [readTrailerStrict_eq bounded next_le]
            rfl
          · rw [readChunkDataStrict_eq]
            cases chunk : readChunkData data next chunkSize with
            | none => rfl
            | some read =>
                obtain ⟨payload, behind⟩ := read
                obtain ⟨behind_ge, behind_le, -⟩ := readChunkData_spec chunk
                exact ih (result ++ payload) behind_le (by omega)

theorem tryDecodeChunkedStrict_eq (bounded : data.length < sliceBound) :
    tryDecodeChunkedStrict data = .ok (tryDecodeChunkedMessage data) :=
  decodeChunksStrict_eq bounded [] (Nat.zero_le _) (by omega)

end Strict

/-- The decoder is the inverse of the encoder on messages with anything behind them, finds nothing
in a message that is cut short, keeps what it has found when more bytes arrive, and never panics. -/
theorem chunked_decoding_inverts_encoding :
    (∀ (message : ChunkedMessage) (rest : Bytes),
      tryDecodeChunkedMessage (message.bytes ++ rest) =
        some (message.body, message.bytes.length)) ∧
    (∀ (message : ChunkedMessage) (part : Bytes), part <+: message.bytes → part ≠ message.bytes →
      tryDecodeChunkedMessage part = none) ∧
    (∀ data body consumed, tryDecodeChunkedMessage data = some (body, consumed) →
      consumed ≤ data.length ∧
        ∀ rest, tryDecodeChunkedMessage (data ++ rest) = some (body, consumed)) ∧
    ∀ data : Slice, tryDecodeChunkedStrict data.val = .ok (tryDecodeChunkedMessage data.val) :=
  ⟨ChunkedMessage.tryDecode_bytes, fun message _ => message.tryDecode_cut_short,
    fun _ _ _ decodes => ⟨tryDecode_consumed_le decodes, tryDecode_append decodes⟩,
    fun data => tryDecodeChunkedStrict_eq data.property⟩

/-- A chunk with an extension, and a trailer line. -/
def sampleMessage : ChunkedMessage where
  chunks := [{
    data := ascii "ab"
    nonempty := by decide
    line := {
      digits := ascii "02"
      extension := some (ascii "x")
      spells := ⟨by decide, [0, 2], .cons rfl (.cons rfl .nil), rfl⟩
      extension_text := by
        rintro _ ⟨⟩
        exact ⟨by decide, trivial⟩ } }]
  last := {
    digits := ascii "0"
    extension := none
    spells := ⟨by decide, [0], .cons rfl .nil, rfl⟩
    extension_text := by rintro _ ⟨⟩ }
  trailers := [ascii "A:"]
  trailers_filled := by decide
  trailers_free := by simp [ascii, PairFree]
  fits := by decide

/-- The whole message before a request, and the message without its last byte. -/
theorem sampleMessage_decodes :
    sampleMessage.bytes = ascii "02;x\r\nab\r\n0\r\nA:\r\n\r\n" ∧
      tryDecodeChunkedMessage (sampleMessage.bytes ++ ascii "GET") = some (ascii "ab", 19) ∧
      tryDecodeChunkedMessage (sampleMessage.bytes.take 18) = none :=
  ⟨by decide, chunked_decoding_inverts_encoding.1 sampleMessage (ascii "GET"),
    chunked_decoding_inverts_encoding.2.1 sampleMessage _ (List.take_prefix _ _) (by decide)⟩
end PrivacyEngine
