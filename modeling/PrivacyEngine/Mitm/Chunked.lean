import PrivacyEngine.Mitm.Headers

/-!
# Chunked message bodies

The decoder for chunked transfer coding.  A result is a determined function of the bytes it
consumed: it is unchanged when the input is extended and when it is cut behind the last byte
consumed.
-/

namespace PrivacyEngine

open Wire

/-- One reading of a size line: the chunk size and the position behind the line. -/
def readChunkSize (data : Bytes) (pos : Nat) : Option (Nat × Nat) := do
  let remaining ← sliceFrom data pos
  let crlfAt ← findSub crlf remaining
  let sizeLine ← fromUtf8 (remaining.take crlfAt)
  let chunkSize ← fromStrRadix 16 (trim (sizeLine.takeWhile (· ≠ 59)))
  some (chunkSize, pos + (crlfAt + 2))

/-- Position behind the trailer section that starts at `pos`. -/
def readTrailer (data : Bytes) (pos : Nat) : Option Nat := do
  let next ← slice data pos (pos + 2)
  if next = crlf then some (pos + 2)
  else
    let trailer ← sliceFrom data pos
    let stop ← findSub crlfcrlf trailer
    some (pos + (stop + 4))

/-- The payload of a chunk of known size and the position behind its closing CRLF. -/
def readChunkData (data : Bytes) (pos chunkSize : Nat) : Option (Bytes × Nat) := do
  let chunkEnd ← checkedAdd pos chunkSize
  let crlfEnd ← checkedAdd chunkEnd 2
  if data.length < crlfEnd then none
  else
    let payload ← slice data pos chunkEnd
    let close ← slice data chunkEnd crlfEnd
    if close ≠ crlf then none else some (payload, crlfEnd)

/-- The decoding loop, with one unit of fuel per iteration. -/
def decodeChunks (data : Bytes) : Nat → Bytes → Nat → Option (Bytes × Nat)
  | 0, _, _ => none
  | fuel + 1, result, pos =>
      match readChunkSize data pos with
      | none => none
      | some (chunkSize, pos) =>
          if chunkSize = 0 then (readTrailer data pos).map fun stop => (result, stop)
          else
            match readChunkData data pos chunkSize with
            | none => none
            | some (payload, next) => decodeChunks data fuel (result ++ payload) next

/-- Decoded body and number of bytes consumed.  Every iteration consumes at least two bytes, so
the length of the input bounds the number of iterations. -/
def tryDecodeChunkedMessage (data : Bytes) : Option (Bytes × Nat) :=
  decodeChunks data (data.length + 1) [] 0

/-! ## A result is determined by the bytes it consumed -/

/-- Cutting a buffer at `n` and putting anything behind the cut does not change the bytes between
two positions before it. -/
theorem drop_take_append {data tail : Bytes} {pos n : Nat} (pos_le : pos ≤ n)
    (n_le : n ≤ data.length) :
    (data.take n ++ tail).drop pos = (data.drop pos).take (n - pos) ++ tail := by
  rw [List.drop_append_of_le_length (by simp; omega), List.drop_take]

/-- A block found before a cut is found at the same place after the cut. -/
theorem findSub_cut {pat data tail : Bytes} (pat_ne : pat ≠ []) {pos n i : Nat} (pos_le : pos ≤ n)
    (n_le : n ≤ data.length) (found : findSub pat (data.drop pos) = some i)
    (before : pos + i + pat.length ≤ n) :
    findSub pat ((data.take n ++ tail).drop pos) = some i := by
  rw [drop_take_append pos_le n_le]
  exact findSub_append pat_ne (findSub_take pat_ne found (by omega)) tail

theorem slice_cut {data : Bytes} (tail : Bytes) (start : Nat) {stop n : Nat}
    (n_le : n ≤ data.length) (stop_le : stop ≤ n) :
    slice (data.take n ++ tail) start stop = slice data start stop := by
  have same : (data.take n ++ tail).take stop = data.take stop := by
    rw [List.take_append_of_le_length (by simp; omega), List.take_take, Nat.min_eq_left stop_le]
  unfold slice
  rw [same]
  simp only [List.length_append, List.length_take]
  congr 1
  rw [eq_iff_iff]
  constructor <;> rintro ⟨le, -⟩ <;> exact ⟨le, by omega⟩

theorem readChunkSize_spec {data : Bytes} {pos chunkSize next : Nat}
    (reads : readChunkSize data pos = some (chunkSize, next)) :
    pos + 2 ≤ next ∧ next ≤ data.length ∧
      ∀ n tail, next ≤ n → n ≤ data.length →
        readChunkSize (data.take n ++ tail) pos = some (chunkSize, next) := by
  simp only [readChunkSize, sliceFrom, Option.bind_eq_bind, Option.bind_eq_some_iff,
    Option.some.injEq, Prod.mk.injEq] at reads
  obtain ⟨remaining, in_range, crlfAt, found, line, decoded, size, parsed, rfl, rfl⟩ := reads
  split at in_range
  · rename_i pos_le
    obtain rfl := Option.some.inj in_range
    have bound := findSub_bound crlf_ne_nil found
    rw [List.length_drop, show crlf.length = 2 from rfl] at bound
    refine ⟨by omega, by omega, fun n tail next_le n_le => ?_⟩
    have found' : findSub crlf ((data.take n ++ tail).drop pos) = some crlfAt := by
      apply findSub_cut crlf_ne_nil (by omega) n_le found
      rw [show crlf.length = 2 from rfl]
      omega
    have line' : ((data.take n ++ tail).drop pos).take crlfAt = (data.drop pos).take crlfAt := by
      rw [drop_take_append (by omega) n_le,
        List.take_append_of_le_length (by simp; omega), List.take_take,
        Nat.min_eq_left (by omega)]
    have pos_le' : pos ≤ (data.take n ++ tail).length := by simp; omega
    simp only [readChunkSize, sliceFrom_eq_some pos_le', Option.bind_eq_bind, Option.bind_some,
      found', line', decoded, parsed]
  · cases in_range

theorem readTrailer_spec {data : Bytes} {pos stop : Nat}
    (reads : readTrailer data pos = some stop) :
    pos + 2 ≤ stop ∧ stop ≤ data.length ∧
      ∀ tail, readTrailer (data.take stop ++ tail) pos = some stop := by
  simp only [readTrailer, Option.bind_eq_bind, Option.bind_eq_some_iff] at reads
  obtain ⟨next, next_eq, reads⟩ := reads
  have next_le : pos + 2 ≤ data.length := by
    by_contra short
    simp [slice, short] at next_eq
  split at reads
  · rename_i blank
    obtain rfl := Option.some.inj reads
    refine ⟨le_rfl, next_le, fun tail => ?_⟩
    have next' := (slice_cut tail pos next_le le_rfl).trans next_eq
    simp [readTrailer, next', blank]
  · rename_i nonblank
    simp only [sliceFrom, Option.bind_eq_some_iff, Option.some.injEq] at reads
    obtain ⟨trailer, in_range, at_, found, rfl⟩ := reads
    split at in_range
    · rename_i pos_le
      obtain rfl := Option.some.inj in_range
      have bound := findSub_bound crlfcrlf_ne_nil found
      rw [List.length_drop, show crlfcrlf.length = 4 from rfl] at bound
      refine ⟨by omega, by omega, fun tail => ?_⟩
      have n_le : pos + (at_ + 4) ≤ data.length := by omega
      have next' := (slice_cut tail pos n_le (by omega : pos + 2 ≤ _)).trans next_eq
      have found' : findSub crlfcrlf ((data.take (pos + (at_ + 4)) ++ tail).drop pos) =
          some at_ := by
        apply findSub_cut crlfcrlf_ne_nil (by omega) n_le found
        rw [show crlfcrlf.length = 4 from rfl]
        omega
      have pos_le' : pos ≤ (data.take (pos + (at_ + 4)) ++ tail).length := by simp; omega
      simp only [readTrailer, next', Option.bind_eq_bind, Option.bind_some, nonblank, if_false,
        sliceFrom_eq_some pos_le', found']
    · cases in_range

theorem readChunkData_spec {data payload : Bytes} {pos chunkSize next : Nat}
    (reads : readChunkData data pos chunkSize = some (payload, next)) :
    pos ≤ next ∧ next ≤ data.length ∧
      ∀ n tail, next ≤ n → n ≤ data.length →
        readChunkData (data.take n ++ tail) pos chunkSize = some (payload, next) := by
  simp only [readChunkData, checkedAdd, Option.bind_eq_bind, Option.bind_eq_some_iff] at reads
  obtain ⟨chunkEnd, end_eq, crlfEnd, crlf_eq, reads⟩ := reads
  have end_val : chunkEnd = pos + chunkSize := by
    split at end_eq <;> cases end_eq
    rfl
  have crlf_val : crlfEnd = chunkEnd + 2 := by
    split at crlf_eq <;> cases crlf_eq
    rfl
  split at reads
  · cases reads
  · rename_i fits
    simp only [Option.bind_eq_some_iff] at reads
    obtain ⟨payload', payload_eq, close, close_eq, reads⟩ := reads
    split at reads
    · cases reads
    · rename_i closes
      simp only [Option.some.injEq, Prod.mk.injEq] at reads
      obtain ⟨rfl, rfl⟩ := reads
      refine ⟨by omega, by omega, fun n tail next_le n_le => ?_⟩
      have payload'' := (slice_cut tail pos n_le (by omega : chunkEnd ≤ n)).trans payload_eq
      have close' := (slice_cut tail chunkEnd n_le next_le).trans close_eq
      have fits' : ¬ (data.take n ++ tail).length < crlfEnd := by simp; omega
      simp only [readChunkData, checkedAdd, end_eq, crlf_eq, Option.bind_eq_bind, Option.bind_some,
        fits', if_false, payload'', close', closes]

/-- A successful decoding consumes a prefix and depends on nothing behind it; any fuel that covers
the consumed bytes suffices. -/
theorem decodeChunks_spec {data : Bytes} {fuel : Nat} {result body : Bytes} {pos stop : Nat}
    (decodes : decodeChunks data fuel result pos = some (body, stop)) :
    pos < stop ∧ stop ≤ data.length ∧
      ∀ tail enough, stop ≤ pos + enough →
        decodeChunks (data.take stop ++ tail) enough result pos = some (body, stop) := by
  induction fuel generalizing result pos with
  | zero => cases decodes
  | succ fuel ih =>
      rw [decodeChunks] at decodes
      cases size : readChunkSize data pos with
      | none => simp [size] at decodes
      | some read =>
          obtain ⟨chunkSize, next⟩ := read
          obtain ⟨next_ge, next_le, size_cut⟩ := readChunkSize_spec size
          simp only [size] at decodes
          split at decodes
          · rename_i last
            obtain ⟨at_, trailer, at_eq⟩ := Option.map_eq_some_iff.mp decodes
            simp only [Prod.mk.injEq] at at_eq
            obtain ⟨rfl, rfl⟩ := at_eq
            obtain ⟨stop_ge, stop_le, trailer_cut⟩ := readTrailer_spec trailer
            refine ⟨by omega, stop_le, fun tail enough covers => ?_⟩
            obtain ⟨enough, rfl⟩ := Nat.exists_eq_succ_of_ne_zero (by omega : enough ≠ 0)
            rw [decodeChunks, size_cut at_ tail (by omega) stop_le]
            simp [last, trailer_cut tail]
          · rename_i more
            cases chunk : readChunkData data next chunkSize with
            | none => simp [chunk] at decodes
            | some read =>
                obtain ⟨payload, after⟩ := read
                obtain ⟨after_ge, after_le, chunk_cut⟩ := readChunkData_spec chunk
                simp only [chunk] at decodes
                obtain ⟨stop_gt, stop_le, rest_cut⟩ := ih decodes
                refine ⟨by omega, stop_le, fun tail enough covers => ?_⟩
                obtain ⟨enough, rfl⟩ := Nat.exists_eq_succ_of_ne_zero (by omega : enough ≠ 0)
                rw [decodeChunks, size_cut stop tail (by omega) stop_le]
                simp only [more, if_false, chunk_cut stop tail (by omega) stop_le]
                exact rest_cut tail enough (by omega)

theorem tryDecode_consumed_le {data body : Bytes} {stop : Nat}
    (decodes : tryDecodeChunkedMessage data = some (body, stop)) : stop ≤ data.length :=
  (decodeChunks_spec decodes).2.1

/-- The decoding of a buffer is the decoding of the message at its front, whatever follows. -/
theorem tryDecode_cut {data body : Bytes} {stop : Nat}
    (decodes : tryDecodeChunkedMessage data = some (body, stop)) (tail : Bytes) :
    tryDecodeChunkedMessage (data.take stop ++ tail) = some (body, stop) := by
  obtain ⟨-, stop_le, cut⟩ := decodeChunks_spec decodes
  apply cut tail
  simp
  omega

/-- Extending a decodable buffer does not change the decoding. -/
theorem tryDecode_append {data body : Bytes} {stop : Nat}
    (decodes : tryDecodeChunkedMessage data = some (body, stop)) (tail : Bytes) :
    tryDecodeChunkedMessage (data ++ tail) = some (body, stop) := by
  have split : data ++ tail = data.take stop ++ (data.drop stop ++ tail) := by
    rw [← List.append_assoc, List.take_append_drop]
  rw [split]
  exact tryDecode_cut decodes _

end PrivacyEngine
