import Mathlib.Data.List.Flatten
import PrivacyEngine.Wire.Split
import PrivacyEngine.Wire.Text

/-!
# Lines of a text

A test of lines that neither lossy decoding nor a carriage return at the end changes marks the lines
between the line feeds of a text.  The marks survive lossy decoding, and those of lines joined by
CRLF are the marks of every line in turn.  Dropping lines therefore drops marks.
-/

namespace Wire

/-! ## Marked lines -/

/-- A test that neither lossy decoding nor a carriage return at the end of a line changes, and that
an empty line does not pass. -/
structure LineTest (test : Str → Bool) : Prop where
  lossy : ∀ line, test (Utf8.lossy line) = test line
  concat_cr : ∀ line, test (line ++ [13]) = test line
  nil : test [] = false

/-- The outcomes of a test on the lines of a text. -/
def lineMarks (test : Str → Bool) (s : Str) : List Bool := (s.splitOn 10).map test

/-- Whether a line behind the first passes a test. -/
def anyLaterLine (test : Str → Bool) (s : Str) : Bool := (s.splitOn 10).tail.any test

theorem anyLaterLine_iff {test : Str → Bool} {s : Str} :
    anyLaterLine test s = true ↔ true ∈ (lineMarks test s).tail := by
  simp [anyLaterLine, lineMarks, List.any_eq_true, ← List.map_tail]

theorem lineMarks_of_no_lf {test : Str → Bool} {s : Str} (no_lf : 10 ∉ s) :
    lineMarks test s = [test s] := by
  rw [lineMarks, List.splitOn_eq_singleton no_lf, List.map_singleton]

theorem Utf8.lossy_intercalate {c : UInt8} (c_ascii : c < 0x80) (pieces : List Str) :
    Utf8.lossy ([c].intercalate pieces) = [c].intercalate (pieces.map Utf8.lossy) := by
  induction pieces with
  | nil => rfl
  | cons piece pieces ih =>
      cases pieces with
      | nil => simp
      | cons next pieces =>
          rw [List.intercalate_cons_cons, List.append_assoc, List.singleton_append,
            Utf8.lossy_append_ascii piece c_ascii, ih]
          simp

/-- Decoding a text decodes what stands between its separators. -/
theorem splitOn_lossy {c : UInt8} (c_ascii : c < 0x80) (s : Str) :
    (Utf8.lossy s).splitOn c = (s.splitOn c).map Utf8.lossy := by
  have joined := Utf8.lossy_intercalate c_ascii (s.splitOn c)
  rw [List.intercalate_splitOn] at joined
  rw [joined]
  refine List.splitOn_intercalate c (fun piece mem sep => ?_) (by simp [List.splitOn_ne_nil])
  obtain ⟨raw, raw_mem, rfl⟩ := List.mem_map.mp mem
  obtain ⟨front, back, cut⟩ := List.append_of_mem sep
  obtain ⟨front₀, back₀, rfl, -⟩ := Utf8.lossy_reflects_ascii c_ascii cut
  exact not_mem_of_mem_splitOn raw_mem (by simp)

theorem splitOnce_lossy {sep : UInt8} (sep_ascii : sep < 0x80) (s : Str) :
    splitOnce sep (Utf8.lossy s) =
      (splitOnce sep s).map fun cut => (Utf8.lossy cut.1, Utf8.lossy cut.2) := by
  cases cut : splitOnce sep s with
  | none =>
      rw [splitOnce_eq_none_iff] at cut
      refine splitOnce_eq_none_iff.mpr fun mem => ?_
      obtain ⟨front, back, decoded⟩ := List.append_of_mem mem
      obtain ⟨front₀, back₀, rfl, -⟩ := Utf8.lossy_reflects_ascii sep_ascii decoded
      exact cut (by simp)
  | some cut' =>
      obtain ⟨key, value⟩ := cut'
      obtain ⟨rfl, absent⟩ := splitOnce_eq_some_iff.mp cut
      refine splitOnce_eq_some_iff.mpr ⟨Utf8.lossy_append_ascii key sep_ascii value, fun mem => ?_⟩
      obtain ⟨front, back, decoded⟩ := List.append_of_mem mem
      obtain ⟨front₀, back₀, rfl, -⟩ := Utf8.lossy_reflects_ascii sep_ascii decoded
      exact absent (by simp)

/-- A character that is no separator extends the last piece. -/
theorem splitOn_concat {c x : UInt8} (ne : x ≠ c) (s : Str) :
    ∃ front last, s.splitOn c = front ++ [last] ∧
      (s ++ [x]).splitOn c = front ++ [last ++ [x]] := by
  induction s with
  | nil => exact ⟨[], [], by simp, List.splitOn_eq_singleton (by simpa using Ne.symm ne)⟩
  | cons b s ih =>
      obtain ⟨front, last, before, behind⟩ := ih
      rw [List.cons_append, List.splitOn_cons_eq_if_modifyHead, List.splitOn_cons_eq_if_modifyHead,
        before, behind]
      split
      · exact ⟨[] :: front, last, rfl, rfl⟩
      · cases front with
        | nil => exact ⟨[], b :: last, rfl, rfl⟩
        | cons first front => exact ⟨(b :: first) :: front, last, rfl, rfl⟩

namespace LineTest

variable {test : Str → Bool} (stable : LineTest test)

include stable

theorem lineMarks_lossy (s : Str) : lineMarks test (Utf8.lossy s) = lineMarks test s := by
  rw [lineMarks, splitOn_lossy (by decide), List.map_map, lineMarks]
  exact List.map_congr_left fun line _ => stable.lossy line

/-- A carriage return at the end belongs to the last line. -/
theorem lineMarks_concat_cr (s : Str) : lineMarks test (s ++ [13]) = lineMarks test s := by
  obtain ⟨front, last, before, behind⟩ := splitOn_concat (c := 10) (x := 13) (by decide) s
  rw [lineMarks, lineMarks, before, behind]
  simp [stable.concat_cr]

theorem lineMarks_cut (p t : Str) :
    lineMarks test (p ++ 13 :: 10 :: t) = lineMarks test p ++ lineMarks test t := by
  have cut : p ++ 13 :: 10 :: t = (p ++ [13]) ++ 10 :: t := by simp
  rw [cut, lineMarks, List.splitOn_append_cons_self, List.map_append, ← lineMarks, ← lineMarks,
    stable.lineMarks_concat_cr]

theorem lineMarks_joinPair {lines : List Str} (lines_ne : lines ≠ []) :
    lineMarks test (joinPair 13 10 lines) = lines.flatMap (lineMarks test) := by
  induction lines with
  | nil => exact absurd rfl lines_ne
  | cons line lines ih =>
      cases lines with
      | nil => simp [joinPair]
      | cons next lines =>
          rw [joinPair_cons line (List.cons_ne_nil next lines), stable.lineMarks_cut,
            ih (List.cons_ne_nil next lines)]
          rfl

/-- The marks of a text are those of its CRLF-separated lines. -/
theorem flatMap_splitPair (s : Str) :
    (splitPair 13 10 s).flatMap (lineMarks test) = lineMarks test s := by
  rw [← stable.lineMarks_joinPair (splitPair_ne_nil 13 10 s), joinPair_splitPair]

theorem lineMarks_nil : lineMarks test [] = [false] := by
  rw [lineMarks_of_no_lf List.not_mem_nil, stable.nil]

theorem lineMarks_crlf : lineMarks test [13, 10] = [false, false] := by
  have cut := stable.lineMarks_cut [] []
  rwa [stable.lineMarks_nil] at cut

end LineTest

/-- A carriage return that the literal lacks ends every match. -/
theorem startsWithLower_concat_cr {lit : Str} (no_cr : 13 ∉ lit) (s : Str) :
    startsWithLower (s ++ [13]) lit = startsWithLower s lit := by
  rw [Bool.eq_iff_iff]
  simp only [startsWithLower, toAsciiLowercase, List.isPrefixOf_iff_prefix, List.map_append]
  constructor
  · intro starts
    rcases List.prefix_concat_iff.mp starts with whole | shorter
    · exact absurd (by rw [whole]; exact List.mem_append_right _ (List.mem_singleton.mpr rfl)) no_cr
    · exact shorter
  · exact fun starts => starts.trans (List.prefix_append _ _)

/-- Whether a line starts with an ASCII literal is a test of lines. -/
theorem lineTest_startsWithLower {lit : Str} (lit_ne : lit ≠ []) (lit_ascii : ∀ b ∈ lit, b < 0x80)
    (no_cr : 13 ∉ lit) : LineTest (startsWithLower · lit) where
  lossy := startsWithLower_lossy lit_ascii
  concat_cr := startsWithLower_concat_cr no_cr
  nil := by
    cases lit with
    | nil => exact absurd rfl lit_ne
    | cons b lit => rfl

/-! ## Lines and lossy decoding -/

theorem Utf8.lossy_joinPair (lines : List Str) :
    Utf8.lossy (joinPair 13 10 lines) = joinPair 13 10 (lines.map Utf8.lossy) := by
  induction lines with
  | nil => rfl
  | cons line lines ih =>
      cases lines with
      | nil => rfl
      | cons next lines =>
          have cr : (13 : UInt8) < 0x80 := by decide
          have lf : (10 : UInt8) < 0x80 := by decide
          rw [joinPair_cons line (List.cons_ne_nil next lines), Utf8.lossy_append_ascii line cr,
            Utf8.lossy_cons_ascii lf, ih]
          rfl

theorem pairFree_lossy {line : Str} (free : PairFree 13 10 line) :
    PairFree 13 10 (Utf8.lossy line) := by
  rw [pairFree_iff] at free ⊢
  intro left right eq
  obtain ⟨left₀, right₀, rfl, -, right_eq⟩ := Utf8.lossy_reflects_ascii (by decide) eq
  obtain ⟨rest, rfl, -⟩ := Utf8.lossy_reflects_cons (by decide) right_eq.symm
  exact free left₀ rest rfl

/-- Decoding a text decodes its lines. -/
theorem splitPair_lossy (s : Str) :
    splitPair 13 10 (Utf8.lossy s) = (splitPair 13 10 s).map Utf8.lossy := by
  have joined := Utf8.lossy_joinPair (splitPair 13 10 s)
  rw [joinPair_splitPair] at joined
  rw [joined]
  apply splitPair_joinPair (by decide)
  · simpa using splitPair_ne_nil 13 10 s
  · intro line mem
    obtain ⟨line₀, mem₀, rfl⟩ := List.mem_map.mp mem
    exact pairFree_lossy (pairFree_of_mem_splitPair mem₀)

theorem pairFree_crlf_append {c : UInt8} (not_cr : c ≠ 13) (not_lf : c ≠ 10) (s t : Str) :
    PairFree 13 10 (s ++ c :: t) ↔ PairFree 13 10 s ∧ PairFree 13 10 t := by
  induction s with
  | nil =>
      cases t with
      | nil => simp [PairFree]
      | cons y t => simp [PairFree, not_cr]
  | cons x s ih =>
      cases s with
      | nil =>
          have tail_free : PairFree 13 10 (c :: t) ↔ True ∧ PairFree 13 10 t := ih
          simp [PairFree, not_lf, tail_free]
      | cons y s =>
          simp only [List.cons_append, PairFree] at ih ⊢
          rw [ih, and_assoc]

/-- A text without line end is the first line of what follows it behind a line end. -/
theorem findSub_crlf_of_pairFree {line : Str} (free : PairFree 13 10 line) (rest : Str) :
    findSub crlf (line ++ 13 :: 10 :: rest) = some line.length := by
  induction line with
  | nil => simp [findSub, crlf]
  | cons x line ih =>
      cases line with
      | nil => simp [findSub, crlf]
      | cons y line =>
          have later := ih free.2
          have miss : crlf.isPrefixOf (x :: (y :: line ++ 13 :: 10 :: rest)) = false := by
            by_contra hit
            simp only [crlf, List.cons_append, List.isPrefixOf, Bool.not_eq_false,
              Bool.and_eq_true, beq_iff_eq] at hit
            exact free.1 ⟨hit.1.symm, hit.2.1.symm⟩
          rw [List.cons_append, findSub, miss, if_neg Bool.false_ne_true, later]
          rfl

/-! ## Literals inside lines -/

/-- An ASCII literal that can only occur inside one line. -/
structure InLine (lit : Str) : Prop where
  ne_nil : lit ≠ []
  ascii : ∀ b ∈ lit, b < 0x80
  no_cr : 13 ∉ lit
  no_lf : 10 ∉ lit

theorem InLine.exists_line (word : InLine lit) {lines : List Str}
    (occurs : lit <:+: toAsciiLowercase (joinPair 13 10 lines)) :
    ∃ line ∈ lines, lit <:+: toAsciiLowercase line := by
  induction lines with
  | nil => exact absurd (List.infix_nil.mp occurs) word.ne_nil
  | cons line lines ih =>
      cases lines with
      | nil => exact ⟨line, by simp, occurs⟩
      | cons next lines =>
          rw [joinPair_cons line (List.cons_ne_nil next lines), toAsciiLowercase, List.map_append,
            List.map_cons, List.map_cons] at occurs
          rcases infix_append_cons (show asciiLower 13 ∉ lit from word.no_cr) occurs with
            here | behind
          · exact ⟨line, by simp, here⟩
          · rcases infix_append_cons (x := [])
                (show asciiLower 10 ∉ lit from word.no_lf) behind with
              nothing | behind
            · exact absurd (List.infix_nil.mp nothing) word.ne_nil
            · obtain ⟨found, mem, inside⟩ := ih behind
              exact ⟨found, List.mem_cons_of_mem _ mem, inside⟩

/-! ## The first empty line -/

/-- Behind lines that are not empty, the first empty line is the one that closes them. -/
theorem findSub_crlfcrlf_joinPair {lines : List Str} (lines_ne : lines ≠ [])
    (filled : ∀ line ∈ lines.tail, line ≠ []) (free : ∀ line ∈ lines, PairFree 13 10 line)
    (rest : Str) :
    findSub crlfcrlf (joinPair 13 10 lines ++ crlfcrlf ++ rest) =
      some (joinPair 13 10 lines).length := by
  have pieces : splitPair 13 10 (joinPair 13 10 lines ++ crlfcrlf ++ rest) =
      lines ++ [] :: splitPair 13 10 rest := by
    have cut := splitPair_joinPair_append (by decide) lines_ne free (13 :: 10 :: rest)
    simpa [crlfcrlf, splitPair] using cut
  refine (findSub_eq_some_iff crlfcrlf_ne_nil).mpr ⟨?_, ?_⟩
  · rw [List.append_assoc, List.drop_left]
    exact List.prefix_append _ _
  · rintro j early ⟨behind, behind_eq⟩
    have whole := List.take_append_drop j (joinPair 13 10 lines ++ crlfcrlf ++ rest)
    rw [← behind_eq] at whole
    generalize front_eq : (joinPair 13 10 lines ++ crlfcrlf ++ rest).take j = front at whole
    have front_length : front.length = j := by
      rw [← front_eq, List.length_take]
      simp only [List.length_append]
      omega
    have pieces' : splitPair 13 10 (joinPair 13 10 lines ++ crlfcrlf ++ rest) =
        splitPair 13 10 front ++ [] :: splitPair 13 10 behind := by
      have cut := splitPair_cut (show (13 : UInt8) ≠ 10 by decide) front (13 :: 10 :: behind)
      rw [← whole]
      simpa [crlfcrlf, splitPair] using cut
    rw [pieces] at pieces'
    have front_join := joinPair_splitPair 13 10 front
    rcases List.append_eq_append_iff.mp pieces' with ⟨more, front_pieces, -⟩ |
        ⟨more, more_eq, behind_pieces⟩
    · have longer := (joinPair_prefix_append 13 10 lines more).length_le
      rw [← front_pieces, front_join] at longer
      omega
    · cases more with
      | nil =>
          rw [List.append_nil] at more_eq
          rw [← more_eq] at front_join
          rw [front_join] at early
          omega
      | cons line more =>
          obtain ⟨rfl, -⟩ := List.cons.inj behind_pieces
          refine filled [] ?_ rfl
          rw [more_eq, List.tail_append_of_ne_nil (splitPair_ne_nil 13 10 front)]
          simp

/-- An empty line behind the first line closes the lines before their end. -/
theorem crlfcrlf_of_blank {lines : List Str} (blank : [] ∈ lines.tail) (rest : Str) :
    ∃ i < (joinPair 13 10 lines).length,
      crlfcrlf <+: (joinPair 13 10 lines ++ crlfcrlf ++ rest).drop i := by
  cases lines with
  | nil => cases blank
  | cons first lines =>
      obtain ⟨before, after, rfl⟩ := List.append_of_mem blank
      have cut : joinPair 13 10 (first :: (before ++ [] :: after)) =
          joinPair 13 10 (first :: before) ++ 13 :: 10 :: joinPair 13 10 ([] :: after) :=
        joinPair_append 13 10 (List.cons_ne_nil first before) (List.cons_ne_nil [] after)
      have second : crlf <+: joinPair 13 10 ([] :: after) ++ crlfcrlf ++ rest := by
        cases after with
        | nil => exact List.prefix_append [13, 10] (13 :: 10 :: rest)
        | cons next after =>
            rw [joinPair]
            exact List.prefix_append [13, 10] _
      obtain ⟨behind, behind_eq⟩ := second
      refine ⟨(joinPair 13 10 (first :: before)).length, ?_, behind, ?_⟩
      · rw [cut, List.length_append]
        simp
      · have whole : joinPair 13 10 (first :: (before ++ [] :: after)) ++ crlfcrlf ++ rest =
            joinPair 13 10 (first :: before) ++
              13 :: 10 :: (joinPair 13 10 ([] :: after) ++ crlfcrlf ++ rest) := by
          rw [cut]
          simp
        rw [whole, List.drop_left, ← behind_eq]
        rfl

end Wire
