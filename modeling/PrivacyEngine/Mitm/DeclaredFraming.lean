import PrivacyEngine.Mitm.OutputHeaders

/-!
# The framing that a header block declares

A reader of a response takes its framing from two fields: from a Transfer-Encoding field with the
coding chunked, and otherwise from the Content-Length.  Lines end at line feeds for it, as they do
for the Set-Cookie filter.  The relay declares no chunked coding that it has not received.
-/

namespace PrivacyEngine

open Wire

/-! ## Transfer-Encoding fields -/

/-- Blanks around a coding; a carriage return inside a line counts as one. -/
def isBlank (b : UInt8) : Bool := b == 32 || b == 9 || b == 13

def trimBlanks (s : Str) : Str := (s.dropWhile isBlank).rdropWhile isBlank

def isChunkedCoding (coding : Str) : Bool :=
  eqIgnoreAsciiCase (trimBlanks coding) (ascii "chunked")

/-- Whether a line is a Transfer-Encoding field that lists the coding chunked. -/
def isChunkedField (line : Bytes) : Bool :=
  match splitOnce 58 line with
  | some (name, value) =>
      eqIgnoreAsciiCase name (ascii "transfer-encoding") && (value.splitOn 44).any isChunkedCoding
  | none => false

/-- Whether a header block declares a chunked body. -/
def declaresChunked (headerBlock : Bytes) : Bool := anyLaterLine isChunkedField headerBlock

theorem trimBlanks_concat_cr (s : Str) : trimBlanks (s ++ [13]) = trimBlanks s := by
  rw [trimBlanks, trimBlanks, List.dropWhile_append]
  split
  · rename_i blank
    rw [List.isEmpty_iff.mp blank]
    rfl
  · exact List.rdropWhile_concat_pos _ _ _ rfl

theorem infix_trimBlanks (s : Str) : trimBlanks s <:+: s :=
  (List.rdropWhile_prefix _ _).isInfix.trans (List.dropWhile_suffix _).isInfix

/-- What trimming drops is blank. -/
theorem mem_trimBlanks {s : Str} {b : UInt8} (mem : b ∈ s) :
    b ∈ trimBlanks s ∨ isBlank b = true := by
  rw [← List.takeWhile_append_dropWhile (p := isBlank) (l := s)] at mem
  rcases List.mem_append.mp mem with front | mem
  · exact .inr (List.mem_takeWhile_imp front)
  · rw [← List.rdropWhile_append_rtakeWhile (p := isBlank) (l := s.dropWhile isBlank)] at mem
    exact (List.mem_append.mp mem).imp id List.mem_rtakeWhile_imp

/-! ## Tests of lines -/

theorem ascii_of_eqIgnoreAsciiCase {lit : Str} (lit_ascii : ∀ b ∈ toAsciiLowercase lit, b < 0x80)
    {s : Str} (same : eqIgnoreAsciiCase s lit = true) : ∀ b ∈ s, b < 0x80 := by
  intro b mem
  rw [eqIgnoreAsciiCase, beq_iff_eq] at same
  apply lt_of_asciiLower_lt
  apply lit_ascii
  rw [← same]
  exact List.mem_map_of_mem mem

theorem ascii_of_isChunkedCoding {coding : Str} (chunked : isChunkedCoding coding = true) :
    ∀ b ∈ coding, b < 0x80 := by
  intro b mem
  rcases mem_trimBlanks mem with inside | blank
  · exact ascii_of_eqIgnoreAsciiCase (by decide +kernel) chunked b inside
  · simp only [isBlank, Bool.or_eq_true, beq_iff_eq] at blank
    rcases blank with (rfl | rfl) | rfl <;> decide

theorem lineTest_isChunkedField : LineTest isChunkedField where
  lossy line := by
    have name_ascii : ∀ b ∈ toAsciiLowercase (ascii "transfer-encoding"), b < 0x80 := by
      decide +kernel
    rw [isChunkedField, isChunkedField, splitOnce_lossy (by decide)]
    cases splitOnce 58 line with
    | none => rfl
    | some cut =>
        obtain ⟨name, value⟩ := cut
        have named := @test_lossy (eqIgnoreAsciiCase · (ascii "transfer-encoding"))
          (fun s => ascii_of_eqIgnoreAsciiCase name_ascii) name
        have listed : ((value.splitOn 44).map Utf8.lossy).any isChunkedCoding =
            (value.splitOn 44).any isChunkedCoding := by
          rw [List.any_map]
          congr 1
          funext coding
          exact test_lossy (fun s => ascii_of_isChunkedCoding) coding
        simp only [Option.map_some, splitOn_lossy (show (44 : UInt8) < 0x80 by decide),
          named, listed]
  concat_cr line := by
    rw [isChunkedField, isChunkedField]
    cases cut : splitOnce 58 line with
    | none =>
        rw [splitOnce_eq_none_iff] at cut
        have absent : splitOnce 58 (line ++ [13]) = none :=
          splitOnce_eq_none_iff.mpr (by simpa using cut)
        rw [absent]
    | some cut' =>
        obtain ⟨name, value⟩ := cut'
        obtain ⟨rfl, absent⟩ := splitOnce_eq_some_iff.mp cut
        have longer : splitOnce 58 (name ++ 58 :: value ++ [13]) = some (name, value ++ [13]) :=
          splitOnce_eq_some_iff.mpr ⟨by simp, absent⟩
        obtain ⟨front, last, before, behind⟩ :=
          splitOn_concat (c := 44) (x := 13) (by decide) value
        have same : isChunkedCoding (last ++ [13]) = isChunkedCoding last := by
          rw [isChunkedCoding, trimBlanks_concat_cr, ← isChunkedCoding]
        rw [longer]
        simp only [before, behind, List.any_append, List.any_cons, same]
  nil := rfl

/-! ## The relay's detector -/

/-- The detector of the relay finds the words of every such field. -/
theorem chunked_of_declaresChunked {headerBlock : Bytes}
    (declares : declaresChunked headerBlock = true) :
    hasTransferEncodingChunked headerBlock = true := by
  obtain ⟨line, mem, field⟩ := List.any_eq_true.mp declares
  have within : line <:+: headerBlock := by
    have joined : [10].intercalate (headerBlock.splitOn 10) = headerBlock :=
      List.intercalate_splitOn 10
    rw [← joined]
    exact infix_intercalate (List.mem_of_mem_tail mem)
  rw [isChunkedField] at field
  split at field
  · rename_i name value cut
    obtain ⟨rfl, -⟩ := splitOnce_eq_some_iff.mp cut
    rw [Bool.and_eq_true, eqIgnoreAsciiCase, beq_iff_eq] at field
    obtain ⟨named, listed⟩ := field
    obtain ⟨coding, coding_mem, chunked⟩ := List.any_eq_true.mp listed
    rw [isChunkedCoding, eqIgnoreAsciiCase, beq_iff_eq] at chunked
    have inside : coding <:+: value := by
      have joined : [44].intercalate (value.splitOn 44) = value := List.intercalate_splitOn 44
      rw [← joined]
      exact infix_intercalate coding_mem
    have in_block : trimBlanks coding <:+: headerBlock :=
      ((infix_trimBlanks coding).trans inside).trans
        (((List.suffix_cons 58 value).trans (List.suffix_append name _)).isInfix.trans within)
    have front : name ++ [58] <:+: headerBlock :=
      (List.IsPrefix.isInfix ⟨value, by simp⟩).trans within
    rw [hasTransferEncodingChunked_iff]
    constructor
    · have words := front.map asciiLower
      rw [List.map_append, ← toAsciiLowercase, named] at words
      exact words
    · have words := in_block.map asciiLower
      rw [← toAsciiLowercase, chunked] at words
      exact words
  · cases field

theorem declaresChunked_of_reframe {dropped : List Str} {headerBlock : Bytes} {bodyLen : Nat}
    (declares : declaresChunked (reframe dropped headerBlock bodyLen) = true) :
    declaresChunked headerBlock = true :=
  anyLaterLine_of_reframe lineTest_isChunkedField rfl declares

/-- The policy declares no chunked coding. -/
theorem RelayEnv.declaresChunked_of_outputHeaders {env : RelayEnv} {block : Bytes}
    (terminated : findHeadersEnd block = some block.length)
    (declares : declaresChunked (env.outputHeaders block) = true) : declaresChunked block = true :=
  anyLaterLine_of_outputHeaders lineTest_isChunkedField terminated declares

/-- A field in front of an empty line is a field of the whole block. -/
theorem declaresChunked_append {front : Bytes} (closed : crlfcrlf <:+ front)
    (declares : declaresChunked front = true) (rest : Bytes) :
    declaresChunked (front ++ rest) = true := by
  obtain ⟨lines, rfl⟩ := closed
  have cut : ∀ tail, lineMarks isChunkedField (lines ++ [13, 10] ++ 13 :: 10 :: tail) =
      lineMarks isChunkedField (lines ++ [13, 10]) ++ lineMarks isChunkedField tail :=
    lineTest_isChunkedField.lineMarks_cut _
  have front_eq : lines ++ crlfcrlf = lines ++ [13, 10] ++ 13 :: 10 :: [] := by simp [crlfcrlf]
  have whole : lines ++ crlfcrlf ++ rest = lines ++ [13, 10] ++ 13 :: 10 :: rest := by
    simp [crlfcrlf]
  rw [declaresChunked, anyLaterLine_iff, front_eq, cut,
    lineTest_isChunkedField.lineMarks_nil] at declares
  rw [declaresChunked, anyLaterLine_iff, whole, cut]
  have inside := mem_tail_of_append declares (by decide)
  exact ((List.sublist_append_left _ _).tail).subset inside

end PrivacyEngine
