import PrivacyEngine.Mitm.Headers
import PrivacyEngine.Wire.Decimal
import PrivacyEngine.Wire.Lines

/-!
# Reframed header blocks

A block rebuilt around a new body length has its only empty line at its end and announces exactly
that length.  It is chunked only if the block it was made from already looked chunked.
-/

namespace PrivacyEngine

open Wire

theorem lengthLine_no_cr (bodyLen : Nat) : 13 ∉ lengthLine bodyLen := by
  rw [lengthLine, List.mem_append, not_or]
  refine ⟨by decide, fun mem => ?_⟩
  exact absurd (decimal_digit mem).1 (by decide)

theorem lengthLine_ascii (bodyLen : Nat) : ∀ b ∈ lengthLine bodyLen, b < 0x80 := by
  refine List.forall_mem_append.mpr ⟨by decide +kernel, fun b mem => ?_⟩
  exact (isSolid_decimal mem).2

/-- Lines of a reframed block. -/
def reframedLines (dropped : List Str) (headerBlock : Bytes) (bodyLen : Nat) : List Str :=
  stripBodyIntegrityHeaders (withoutFields dropped (nonEmptyLines headerBlock)) ++
    [lengthLine bodyLen]

theorem reframe_eq (dropped : List Str) (headerBlock : Bytes) (bodyLen : Nat) :
    reframe dropped headerBlock bodyLen =
      joinPair 13 10 (reframedLines dropped headerBlock bodyLen) ++ crlfcrlf := rfl

section Lines

variable {dropped : List Str} {headerBlock : Bytes} {bodyLen : Nat}

theorem mem_nonEmptyLines_of_kept {line : Str}
    (mem : line ∈ stripBodyIntegrityHeaders (withoutFields dropped (nonEmptyLines headerBlock))) :
    line ∈ nonEmptyLines headerBlock ∧ namesField dropped line = false := by
  have kept := (List.mem_filter.mp mem).1
  obtain ⟨line_mem, unnamed⟩ := List.mem_filter.mp kept
  exact ⟨line_mem, by simpa using unnamed⟩

theorem filled_reframedLines : ∀ line ∈ reframedLines dropped headerBlock bodyLen, line ≠ [] := by
  refine List.forall_mem_append.mpr ⟨fun line mem => ?_, List.forall_mem_singleton.mpr ?_⟩
  · have line_mem := (mem_nonEmptyLines_of_kept mem).1
    simpa using (List.mem_filter.mp line_mem).2
  · exact List.cons_ne_nil _ _

theorem pairFree_reframedLines :
    ∀ line ∈ reframedLines dropped headerBlock bodyLen, PairFree 13 10 line := by
  refine List.forall_mem_append.mpr ⟨fun line mem => ?_, List.forall_mem_singleton.mpr ?_⟩
  · have line_mem := (mem_nonEmptyLines_of_kept mem).1
    exact pairFree_of_mem_splitPair (List.mem_filter.mp line_mem).1
  · rw [pairFree_iff]
    intro left right eq
    exact lengthLine_no_cr bodyLen (by rw [eq]; simp)

theorem reframedLines_ne_nil : reframedLines dropped headerBlock bodyLen ≠ [] := by
  simp [reframedLines]

end Lines

/-- The only empty line of a reframed block is at its end. -/
theorem findHeadersEnd_reframe (dropped : List Str) (headerBlock : Bytes) (bodyLen : Nat)
    (rest : Bytes) :
    findHeadersEnd (reframe dropped headerBlock bodyLen ++ rest) =
      some (reframe dropped headerBlock bodyLen).length := by
  rw [findHeadersEnd, reframe_eq, findSub_crlfcrlf_joinPair reframedLines_ne_nil
    (fun line mem => filled_reframedLines line (List.mem_of_mem_tail mem)) pairFree_reframedLines
    rest]
  simp [crlfcrlf]

theorem splitCrlf_reframe (dropped : List Str) (headerBlock : Bytes) (bodyLen : Nat) :
    splitCrlf (reframe dropped headerBlock bodyLen) =
      reframedLines dropped headerBlock bodyLen ++ [[], []] := by
  have cut := splitPair_joinPair_append (by decide) reframedLines_ne_nil
    (@pairFree_reframedLines dropped headerBlock bodyLen) [13, 10]
  simpa [splitCrlf, reframe_eq, crlfcrlf, splitPair] using cut

theorem lossy_lengthLine (bodyLen : Nat) : Utf8.lossy (lengthLine bodyLen) = lengthLine bodyLen :=
  lossy_of_ascii (lengthLine_ascii bodyLen)

/-- The value of the line is the length, when it fits. -/
theorem lengthLine_value (bodyLen : Nat) :
    ((splitOnce 58 (lengthLine bodyLen)).map fun cut => trim cut.2) = some (decimal bodyLen) := by
  have cut : splitOnce 58 (lengthLine bodyLen) =
      some (ascii "Content-Length", 32 :: decimal bodyLen) := rfl
  have spaced : trimStart (32 :: decimal bodyLen) = trimStart (decimal bodyLen) :=
    dropSpaces_space rfl _
  rw [cut, Option.map_some, trim, spaced, ← trim, trim_of_solid fun b mem => isSolid_decimal mem]

/-- The digits of the length that a reframed block announces. -/
theorem firstFieldValue_reframe {dropped : List Str} (named : contentLengthField ∈ dropped)
    (headerBlock : Bytes) (bodyLen : Nat) :
    firstFieldValue contentLengthField
        (splitCrlf (Utf8.lossy (reframe dropped headerBlock bodyLen))) =
      some (decimal bodyLen) := by
  have field_ascii : ∀ b ∈ contentLengthField, b < 0x80 := by decide +kernel
  have lines : splitCrlf (Utf8.lossy (reframe dropped headerBlock bodyLen)) =
      (reframedLines dropped headerBlock bodyLen ++ [[], []]).map Utf8.lossy := by
    rw [← splitCrlf_reframe, splitCrlf, splitPair_lossy]
    rfl
  have kept : ((stripBodyIntegrityHeaders (withoutFields dropped
      (nonEmptyLines headerBlock))).map Utf8.lossy).find? (startsWithLower · contentLengthField) =
      none := by
    rw [List.find?_eq_none]
    intro line mem
    obtain ⟨line₀, mem₀, rfl⟩ := List.mem_map.mp mem
    rw [startsWithLower_lossy field_ascii]
    have unnamed := (mem_nonEmptyLines_of_kept mem₀).2
    rw [namesField, List.any_eq_false] at unnamed
    exact unnamed _ named
  have found : (splitCrlf (Utf8.lossy (reframe dropped headerBlock bodyLen))).find?
      (startsWithLower · contentLengthField) = some (lengthLine bodyLen) := by
    have here : startsWithLower (lengthLine bodyLen) contentLengthField = true := rfl
    rw [lines, reframedLines, List.map_append, List.map_append, List.append_assoc,
      List.find?_append, kept, Option.none_or, List.map_singleton, lossy_lengthLine,
      List.singleton_append]
    exact List.find?_cons_of_pos here
  rw [firstFieldValue, found]
  dsimp only
  rw [lengthLine_value]

/-- A reframed block announces the length it was given. -/
theorem extractContentLength_reframe {dropped : List Str} (named : contentLengthField ∈ dropped)
    (headerBlock : Bytes) (bodyLen : Nat) :
    extractContentLength (reframe dropped headerBlock bodyLen) =
      if bodyLen < usizeBound then some bodyLen else none := by
  rw [extractContentLength, firstFieldValue_reframe named, Option.bind_some, fromStrRadix_decimal]

/-! ## Chunked coding -/

theorem inLine_transferEncoding : InLine (ascii "transfer-encoding:") where
  ne_nil := by decide
  ascii := by decide +kernel
  no_cr := by decide
  no_lf := by decide

theorem inLine_chunked : InLine (ascii "chunked") where
  ne_nil := by decide
  ascii := by decide +kernel
  no_cr := by decide
  no_lf := by decide

theorem hasTransferEncodingChunked_iff (headerBlock : Bytes) :
    hasTransferEncodingChunked headerBlock = true ↔
      ascii "transfer-encoding:" <:+: toAsciiLowercase headerBlock ∧
        ascii "chunked" <:+: toAsciiLowercase headerBlock := by
  have field := inLine_transferEncoding
  have coding := inLine_chunked
  rw [hasTransferEncodingChunked, Bool.and_eq_true, contains_iff field.ne_nil,
    contains_iff coding.ne_nil, infix_lossy_iff field.ne_nil field.ascii,
    infix_lossy_iff coding.ne_nil coding.ascii]

/-- A literal in a closed block is in one of its lines. -/
theorem exists_line_of_closeHeaders {lit : Str} (word : InLine lit) {lines : List Str}
    (occurs : lit <:+: toAsciiLowercase (closeHeaders lines)) :
    ∃ line ∈ lines, lit <:+: toAsciiLowercase line := by
  have empty : ¬ lit <:+: toAsciiLowercase [] := fun nothing =>
    word.ne_nil (List.infix_nil.mp nothing)
  cases lines with
  | nil =>
      have joined : closeHeaders [] = joinPair 13 10 [[], [], []] := rfl
      rw [joined] at occurs
      obtain ⟨line, mem, inside⟩ := word.exists_line occurs
      obtain rfl : line = [] := by simpa using mem
      exact absurd inside empty
  | cons first lines =>
      have joined : closeHeaders (first :: lines) = joinPair 13 10 (first :: lines ++ [[], []]) :=
        (joinPair_append 13 10 (List.cons_ne_nil first lines) (List.cons_ne_nil [] [[]])).symm
      rw [joined] at occurs
      obtain ⟨line, mem, inside⟩ := word.exists_line occurs
      rcases List.mem_append.mp mem with kept | blank
      · exact ⟨line, kept, inside⟩
      · obtain rfl : line = [] := by simpa using blank
        exact absurd inside empty

/-- A literal in a line of a block is in the block. -/
theorem infix_of_nonEmptyLines {lit : Str} (word : InLine lit) {headerBlock : Bytes} {line : Str}
    (mem : line ∈ nonEmptyLines headerBlock) (inside : lit <:+: toAsciiLowercase line) :
    lit <:+: toAsciiLowercase headerBlock := by
  have within : line <:+: Utf8.lossy headerBlock := by
    rw [← joinPair_splitPair 13 10 (Utf8.lossy headerBlock)]
    exact infix_joinPair (List.mem_filter.mp mem).1
  exact (infix_lossy_iff word.ne_nil word.ascii).mp (inside.trans (within.map asciiLower))

theorem not_mem_lower_lengthLine {letter : UInt8} (bodyLen : Nat)
    (lacks : letter ∉ toAsciiLowercase (ascii "Content-Length: ")) (not_digit : 57 < letter) :
    letter ∉ toAsciiLowercase (lengthLine bodyLen) := by
  rw [lengthLine, toAsciiLowercase, List.map_append, List.mem_append, not_or]
  refine ⟨lacks, fun mem => ?_⟩
  obtain ⟨digit, digit_mem, rfl⟩ := List.mem_map.mp mem
  have bounds := decimal_digit digit_mem
  have lower : asciiLower digit = digit := by
    refine if_neg fun upper => ?_
    exact absurd (UInt8.le_trans upper.1 bounds.2) (by decide)
  rw [lower] at not_digit
  exact absurd bounds.2 (UInt8.not_le.mpr not_digit)

/-- A literal with a letter that a length line lacks occurs in a reframed block only if it occurs in
the block it was made from. -/
theorem infix_of_infix_reframe {lit : Str} (word : InLine lit) (letter : UInt8) (mem : letter ∈ lit)
    (lacks : letter ∉ toAsciiLowercase (ascii "Content-Length: ")) (not_digit : 57 < letter)
    {dropped : List Str} {headerBlock : Bytes} {bodyLen : Nat}
    (occurs : lit <:+: toAsciiLowercase (reframe dropped headerBlock bodyLen)) :
    lit <:+: toAsciiLowercase headerBlock := by
  obtain ⟨line, line_mem, inside⟩ := exists_line_of_closeHeaders word occurs
  rcases List.mem_append.mp line_mem with kept | last
  · exact infix_of_nonEmptyLines word (mem_nonEmptyLines_of_kept kept).1 inside
  · obtain rfl := List.mem_singleton.mp last
    exact absurd (inside.subset mem) (not_mem_lower_lengthLine bodyLen lacks not_digit)

/-- Reframing does not make a block chunked. -/
theorem chunked_of_chunked_reframe {dropped : List Str} {headerBlock : Bytes} {bodyLen : Nat}
    (chunked : hasTransferEncodingChunked (reframe dropped headerBlock bodyLen) = true) :
    hasTransferEncodingChunked headerBlock = true := by
  rw [hasTransferEncodingChunked_iff] at chunked ⊢
  -- a length line has neither the f of the field name nor the k of the coding
  exact ⟨infix_of_infix_reframe inLine_transferEncoding 102 (by decide) (by decide) (by decide)
      chunked.1,
    infix_of_infix_reframe inLine_chunked 107 (by decide) (by decide) (by decide) chunked.2⟩

/-! ## Marked lines -/

theorem mem_tail_of_append {x : Bool} {front back : List Bool} (mem : x ∈ (front ++ back).tail)
    (absent : x ∉ back) : x ∈ front.tail := by
  cases front with
  | nil => exact absurd (List.mem_of_mem_tail mem) absent
  | cons y front => exact (List.mem_append.mp mem).resolve_right absent

section Marks

variable {test : Str → Bool} (stable : LineTest test)

include stable

/-- The lines kept of a block have no marks that the block does not have. -/
theorem sublist_marks_of_kept {headerBlock : Bytes} {lines : List Str}
    (kept : lines.Sublist (nonEmptyLines headerBlock)) :
    (lines.flatMap (lineMarks test)).Sublist (lineMarks test headerBlock) := by
  rw [← stable.lineMarks_lossy headerBlock, ← stable.flatMap_splitPair]
  exact (kept.trans List.filter_sublist).flatMap _

/-- The two empty lines that close a block are not marked. -/
theorem true_mem_of_closeHeaders {lines : List Str}
    (later : anyLaterLine test (closeHeaders lines) = true) :
    true ∈ (lines.flatMap (lineMarks test)).tail := by
  have marks : lineMarks test (closeHeaders lines) =
      lineMarks test (joinPair 13 10 lines) ++ [false, false] := by
    rw [← stable.lineMarks_crlf]
    exact stable.lineMarks_cut _ [13, 10]
  rw [anyLaterLine_iff, marks] at later
  have inside := mem_tail_of_append later (by decide)
  cases lines with
  | nil =>
      rw [joinPair, stable.lineMarks_nil] at inside
      cases inside
  | cons line lines => rwa [stable.lineMarks_joinPair (List.cons_ne_nil line lines)] at inside

theorem anyLaterLine_of_kept {headerBlock : Bytes} {lines : List Str}
    (kept : lines.Sublist (nonEmptyLines headerBlock))
    (later : anyLaterLine test (closeHeaders lines) = true) :
    anyLaterLine test headerBlock = true := by
  rw [anyLaterLine_iff]
  exact (sublist_marks_of_kept stable kept).tail.subset (true_mem_of_closeHeaders stable later)

/-- Reframing marks no line, unless the test marks a length. -/
theorem anyLaterLine_of_reframe {dropped : List Str} {headerBlock : Bytes} {bodyLen : Nat}
    (other : test (lengthLine bodyLen) = false)
    (later : anyLaterLine test (reframe dropped headerBlock bodyLen) = true) :
    anyLaterLine test headerBlock = true := by
  have no_lf : 10 ∉ lengthLine bodyLen := by
    rw [lengthLine, List.mem_append, not_or]
    refine ⟨by decide, fun mem => ?_⟩
    exact absurd (decimal_digit mem).1 (by decide)
  have inside := true_mem_of_closeHeaders stable later
  rw [List.flatMap_append, List.flatMap_singleton, lineMarks_of_no_lf no_lf, other] at inside
  have kept :
      (stripBodyIntegrityHeaders (withoutFields dropped (nonEmptyLines headerBlock))).Sublist
      (nonEmptyLines headerBlock) := List.filter_sublist.trans List.filter_sublist
  rw [anyLaterLine_iff]
  exact (sublist_marks_of_kept stable kept).tail.subset (mem_tail_of_append inside (by decide))

end Marks

/-! ## What reframing keeps -/

/-- A block under a new length: it announces that length in its only length line, ends in its only
empty line, and has the other lines of the block it was made from, but for those of the removed
fields. -/
structure Reframed (removed : List Str) (headerBlock out : Bytes) (newLength : Nat) : Prop where
  announced : extractContentLength out = some newLength
  single : (splitCrlf out).countP (startsWithLower · contentLengthField) = 1
  terminated : findHeadersEnd out = some out.length
  stripped : ∀ line ∈ splitCrlf out, namesField removed line = false
  kept :
    (splitCrlf out).filter (fun line => line ≠ [] && !startsWithLower line contentLengthField) =
    (nonEmptyLines headerBlock).filter (!namesField (contentLengthField :: removed) ·)

section Kept

variable {dropped removed : List Str}

/-- Lines that a block keeps are the lines of no field it drops. -/
theorem keptLines_eq (covers : ∀ line, namesField (contentLengthField :: removed) line =
      (namesField bodyIntegrityFields line || namesField dropped line)) (lines : List Str) :
    stripBodyIntegrityHeaders (withoutFields dropped lines) =
      lines.filter (!namesField (contentLengthField :: removed) ·) := by
  rw [stripBodyIntegrityHeaders, withoutFields, withoutFields, List.filter_filter]
  congr 1
  funext line
  rw [covers, Bool.not_or]

theorem reframed (covers : ∀ line, namesField (contentLengthField :: removed) line =
      (namesField bodyIntegrityFields line || namesField dropped line))
    (named : contentLengthField ∈ dropped)
    (other : ∀ bodyLen, namesField removed (lengthLine bodyLen) = false)
    (headerBlock : Bytes) {newLength : Nat} (fits : newLength < usizeBound) :
    Reframed removed headerBlock (reframe dropped headerBlock newLength) newLength := by
  have lines : splitCrlf (reframe dropped headerBlock newLength) =
      (nonEmptyLines headerBlock).filter (!namesField (contentLengthField :: removed) ·) ++
        [lengthLine newLength] ++ [[], []] := by
    rw [splitCrlf_reframe, reframedLines, keptLines_eq covers]
  have length_line : startsWithLower (lengthLine newLength) contentLengthField = true := rfl
  have blank : startsWithLower [] contentLengthField = false := rfl
  have unnamed : ∀ line ∈ (nonEmptyLines headerBlock).filter
      (!namesField (contentLengthField :: removed) ·),
      line ≠ [] ∧ startsWithLower line contentLengthField = false ∧
        namesField removed line = false := by
    intro line mem
    obtain ⟨inside, kept⟩ := List.mem_filter.mp mem
    rw [Bool.not_eq_true', namesField, List.any_cons, Bool.or_eq_false_iff] at kept
    exact ⟨by simpa using (List.mem_filter.mp inside).2, kept⟩
  have whole := findHeadersEnd_reframe dropped headerBlock newLength []
  rw [List.append_nil] at whole
  refine ⟨?_, ?_, whole, ?_, ?_⟩
  · rw [extractContentLength_reframe named, if_pos fits]
  · have none_kept : ((nonEmptyLines headerBlock).filter
        (!namesField (contentLengthField :: removed) ·)).countP
        (startsWithLower · contentLengthField) = 0 :=
      List.countP_eq_zero.mpr fun line mem => by simp [(unnamed line mem).2.1]
    simp [lines, none_kept, length_line, blank]
  · intro line mem
    rw [lines] at mem
    rcases List.mem_append.mp mem with front | last
    · rcases List.mem_append.mp front with kept | length
      · exact (unnamed line kept).2.2
      · rw [List.mem_singleton.mp length]
        exact other newLength
    · obtain rfl : line = [] := by simpa using last
      have starts := other newLength
      simp only [namesField, List.any_eq_false] at starts ⊢
      intro field mem starts_blank
      refine starts field mem ?_
      obtain rfl : field = [] := by simpa [startsWithLower, toAsciiLowercase] using starts_blank
      rfl
  · rw [lines, List.filter_append, List.filter_append, List.filter_eq_self.mpr fun line mem => by
      simp [unnamed line mem]]
    simp [length_line]

theorem nonEmptyLines_reframe (dropped : List Str) (headerBlock : Bytes) (newLength : Nat) :
    nonEmptyLines (reframe dropped headerBlock newLength) =
      reframedLines dropped headerBlock newLength := by
  have decoded : (reframedLines dropped headerBlock newLength).map Utf8.lossy =
      reframedLines dropped headerBlock newLength := by
    refine Eq.trans (List.map_congr_left ?_) (List.map_id _)
    refine List.forall_mem_append.mpr ⟨fun line mem => ?_, List.forall_mem_singleton.mpr ?_⟩
    · have line_mem := (List.mem_filter.mp (mem_nonEmptyLines_of_kept mem).1).1
      rw [splitCrlf, splitPair_lossy] at line_mem
      obtain ⟨raw, -, rfl⟩ := List.mem_map.mp line_mem
      exact Utf8.lossy_lossy raw
    · exact lossy_lengthLine newLength
  rw [nonEmptyLines, splitCrlf, splitPair_lossy, ← splitCrlf, splitCrlf_reframe, List.map_append,
    decoded, List.filter_append, List.filter_eq_self.mpr fun line mem => by
      simpa using filled_reframedLines line mem]
  simp

/-- Reframing forgets an earlier reframing. -/
theorem reframe_reframe (named : contentLengthField ∈ dropped) (headerBlock : Bytes)
    (first second : Nat) :
    reframe dropped (reframe dropped headerBlock first) second =
      reframe dropped headerBlock second := by
  have length_named : namesField dropped (lengthLine first) = true :=
    List.any_eq_true.mpr ⟨_, named, rfl⟩
  have again : stripBodyIntegrityHeaders (withoutFields dropped
      (reframedLines dropped headerBlock first)) =
      stripBodyIntegrityHeaders (withoutFields dropped (nonEmptyLines headerBlock)) := by
    rw [reframedLines]
    simp only [stripBodyIntegrityHeaders, withoutFields, List.filter_append, List.filter_filter,
      List.filter_singleton, length_named]
    simp only [Bool.not_true, cond_false, List.filter_nil, List.append_nil]
    refine List.filter_congr fun line _ => ?_
    cases namesField bodyIntegrityFields line <;> cases namesField dropped line <;> rfl
  rw [reframe, nonEmptyLines_reframe, again, reframe]

end Kept

/-- Both replacements of a length leave a block that is framed by the new length alone and has the
other lines of the block in their order; replacing a length twice is replacing it once. -/
theorem replacements_reframe (headerBlock : Bytes) (newLength other : UInt64) :
    (Reframed bodyIntegrityFields headerBlock
        (replaceContentLength headerBlock newLength.toNat) newLength.toNat ∧
      replaceContentLength (replaceContentLength headerBlock newLength.toNat) other.toNat =
        replaceContentLength headerBlock other.toNat) ∧
    Reframed (ascii "transfer-encoding:" :: bodyIntegrityFields) headerBlock
        (replaceChunkedWithContentLength headerBlock newLength.toNat) newLength.toNat ∧
      replaceChunkedWithContentLength
          (replaceChunkedWithContentLength headerBlock newLength.toNat) other.toNat =
        replaceChunkedWithContentLength headerBlock other.toNat := by
  have fits : newLength.toNat < usizeBound := newLength.toNat_lt_size
  refine ⟨⟨?_, ?_⟩, ?_, ?_⟩
  · refine reframed (fun line => ?_) List.mem_cons_self (fun _ => rfl) headerBlock fits
    simp only [namesField, List.any_cons, List.any_nil, Bool.or_false]
    exact Bool.or_comm _ _
  · exact reframe_reframe List.mem_cons_self headerBlock _ _
  · refine reframed (fun line => ?_) (by simp) (fun _ => rfl) headerBlock fits
    simp only [namesField, List.any_cons, List.any_nil, Bool.or_false]
    cases startsWithLower line contentLengthField <;>
      cases startsWithLower line (ascii "transfer-encoding:") <;> simp
  · exact reframe_reframe (by simp) headerBlock _ _

end PrivacyEngine
