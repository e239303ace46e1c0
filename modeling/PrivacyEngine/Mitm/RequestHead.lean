import PrivacyEngine.Wire.Lines
import PrivacyEngine.Mitm.Request

/-!
# Request heads as lines

A request head is a list of lines closed by the first empty line.  Each filter of the first request
is a function on these lines, and leaves what follows the head alone as long as that is well-formed
UTF-8.
-/

namespace PrivacyEngine

open Wire

/-- Lines that the first empty line behind them closes. -/
structure IsHead (lines : List Str) : Prop where
  ne_nil : lines ≠ []
  free : ∀ line ∈ lines, PairFree 13 10 line
  filled : ∀ line ∈ lines.tail, line ≠ []

namespace IsHead

variable {lines : List Str}

theorem findSub_close (head : IsHead lines) (rest : Bytes) :
    findSub crlfcrlf (closeHeaders lines ++ rest) = some (joinCrlf lines).length :=
  findSub_crlfcrlf_joinPair head.ne_nil head.filled head.free rest

theorem splitCrlf_join (head : IsHead lines) : splitCrlf (joinCrlf lines) = lines :=
  splitPair_joinPair (by decide) head.ne_nil head.free

theorem splitCrlf_close (head : IsHead lines) (rest : Bytes) :
    splitCrlf (closeHeaders lines ++ rest) = lines ++ [] :: splitCrlf rest := by
  have cut := splitPair_joinPair_append (by decide) head.ne_nil head.free (13 :: 10 :: rest)
  simpa [splitCrlf, closeHeaders, joinCrlf, crlfcrlf, splitPair] using cut

/-- The head and what follows it are determined by the bytes. -/
theorem unique {lines' : List Str} {rest rest' : Bytes} (head : IsHead lines)
    (head' : IsHead lines') (same : closeHeaders lines ++ rest = closeHeaders lines' ++ rest') :
    lines = lines' ∧ rest = rest' := by
  have found := head.findSub_close rest
  rw [same, head'.findSub_close rest'] at found
  have lengths : (closeHeaders lines).length = (closeHeaders lines').length := by
    simpa [closeHeaders] using (Option.some.inj found).symm
  obtain ⟨closed, rest_eq⟩ := List.append_inj same lengths
  have joined : joinCrlf lines = joinCrlf lines' := List.append_cancel_right closed
  refine ⟨?_, rest_eq⟩
  rw [← head.splitCrlf_join, joined, head'.splitCrlf_join]

/-- A proper part of a head has no empty line. -/
theorem findSub_part (head : IsHead lines) {part rest : Bytes}
    (cut : part ++ rest = closeHeaders lines)
    (rest_ne : rest ≠ []) : findSub crlfcrlf part = none := by
  cases found : findSub crlfcrlf part with
  | none => rfl
  | some i =>
      have whole := findSub_append crlfcrlf_ne_nil found rest
      have close := head.findSub_close []
      rw [List.append_nil, ← cut, whole] at close
      have bound := findSub_bound crlfcrlf_ne_nil found
      have lengths := congrArg List.length cut
      have pos := List.length_pos_iff.mpr rest_ne
      simp only [closeHeaders, List.length_append] at lengths
      have i_eq := Option.some.inj close
      omega

theorem blank : IsHead [[]] := ⟨by simp, by simp [PairFree], by simp⟩

/-- Dropping lines of a head leaves a head, unless all are dropped. -/
theorem sublist {kept : List Str} (head : IsHead lines) (dropped : kept.Sublist lines)
    (kept_ne : kept ≠ []) : IsHead kept where
  ne_nil := kept_ne
  free line mem := head.free line (dropped.subset mem)
  filled line mem := head.filled line (dropped.tail.subset mem)

theorem snoc (head : lines = [] ∨ IsHead lines) {line : Str} (free : PairFree 13 10 line)
    (line_ne : line ≠ []) : IsHead (lines ++ [line]) := by
  rcases head with rfl | head
  · exact ⟨by simp, by simpa using free, by simp⟩
  · refine ⟨by simp, ?_, ?_⟩
    · exact List.forall_mem_append.mpr ⟨head.free, by simpa using free⟩
    · rw [List.tail_append_of_ne_nil head.ne_nil]
      exact List.forall_mem_append.mpr ⟨head.filled, by simpa using line_ne⟩

theorem replaceFirst {first other : Str} {rest : List Str} (head : IsHead (first :: rest))
    (free : PairFree 13 10 other) : IsHead (other :: rest) where
  ne_nil := by simp
  free := List.forall_mem_cons.mpr
    ⟨free, fun line mem => head.free line (List.mem_cons_of_mem _ mem)⟩
  filled := head.filled

end IsHead

/-- What a stream has up to its first empty line is a head. -/
theorem exists_isHead {stream : Bytes} {headerEnd : Nat}
    (found : findSub crlfcrlf stream = some headerEnd) :
    ∃ lines rest, IsHead lines ∧ stream = closeHeaders lines ++ rest ∧
      stream.take headerEnd = joinCrlf lines := by
  obtain ⟨⟨rest, rest_eq⟩, earlier⟩ := (findSub_eq_some_iff crlfcrlf_ne_nil).mp found
  have joined : joinCrlf (splitCrlf (stream.take headerEnd)) = stream.take headerEnd :=
    joinPair_splitPair 13 10 _
  have whole : stream = closeHeaders (splitCrlf (stream.take headerEnd)) ++ rest := by
    rw [closeHeaders, joined, List.append_assoc, rest_eq, List.take_append_drop]
  refine ⟨splitCrlf (stream.take headerEnd), rest, ⟨splitPair_ne_nil 13 10 _, ?_, ?_⟩, whole,
    joined.symm⟩
  · exact fun line mem => pairFree_of_mem_splitPair mem
  · rintro line blank rfl
    obtain ⟨i, early, occurs⟩ := crlfcrlf_of_blank blank rest
    change i < (joinCrlf _).length at early
    rw [joined, List.length_take] at early
    refine earlier i (by omega) ?_
    rw [whole]
    exact occurs

/-! ## Well-formed heads -/

theorem valid_joinCrlf_append {lines : List Str} (lines_ne : lines ≠ []) (rest : Bytes) :
    Utf8.valid (joinCrlf lines ++ 13 :: 10 :: rest) = true ↔
      (∀ line ∈ lines, Utf8.valid line = true) ∧ Utf8.valid rest = true := by
  have cut : ∀ line rest, Utf8.valid (line ++ 13 :: 10 :: rest) =
      (Utf8.valid line && Utf8.valid rest) := by
    intro line rest
    rw [Utf8.valid_append_ascii line (by decide), ← List.nil_append (10 :: rest),
      Utf8.valid_append_ascii [] (by decide)]
    rfl
  induction lines with
  | nil => exact absurd rfl lines_ne
  | cons line lines ih =>
      cases lines with
      | nil => simp [joinCrlf, joinPair, cut]
      | cons next lines =>
          have later := ih (List.cons_ne_nil next lines)
          rw [joinCrlf] at later
          rw [joinCrlf, joinPair, List.append_assoc, List.cons_append, List.cons_append, cut,
            Bool.and_eq_true, List.forall_mem_cons (l := next :: lines), and_assoc]
          exact and_congr_right fun _ => later

/-- A head followed by a body is well-formed exactly when all its lines and the body are. -/
theorem valid_closeHeaders {lines : List Str} (lines_ne : lines ≠ []) (body : Bytes) :
    Utf8.valid (closeHeaders lines ++ body) = true ↔
      (∀ line ∈ lines, Utf8.valid line = true) ∧ Utf8.valid body = true := by
  have blank : Utf8.valid (13 :: 10 :: body) = true ↔ Utf8.valid body = true := by
    have alone := @valid_joinCrlf_append [[]] (by simp) body
    rw [List.forall_mem_singleton] at alone
    exact alone.trans (and_iff_right rfl)
  rw [closeHeaders, crlfcrlf, List.append_assoc]
  exact (valid_joinCrlf_append lines_ne (13 :: 10 :: body)).trans (and_congr_right fun _ => blank)

/-! ## The request line -/

/-- How a request line is stripped: some parameters of its query are dropped. -/
theorem stripRequestLine_eq_some {line stripped : Str}
    (strips : stripRequestLine line = some stripped) :
    ∃ method path query version, line = method ++ 32 :: (path ++ 63 :: query ++ 32 :: version) ∧
      ∃ param ∈ query.splitOn 38, isTrackingParam param = true ∧
        stripped = method ++
          32 :: ((if (query.splitOn 38).filter (!isTrackingParam ·) = [] then path
            else path ++ 63 :: [38].intercalate ((query.splitOn 38).filter (!isTrackingParam ·))) ++
              32 :: version) := by
  simp only [stripRequestLine, Option.bind_eq_bind, Option.bind_eq_some_iff, Prod.exists] at strips
  obtain ⟨method, afterMethod, cut₁, uri, version, cut₂, path, query, cut₃, strips⟩ := strips
  obtain ⟨rfl, -⟩ := splitOnce_eq_some_iff.mp cut₁
  obtain ⟨rfl, -⟩ := splitOnce_eq_some_iff.mp cut₂
  obtain ⟨rfl, -⟩ := splitOnce_eq_some_iff.mp cut₃
  split at strips
  · cases strips
  · rename_i tracking
    rw [Bool.not_eq_true, Bool.not_eq_false', List.any_eq_true] at tracking
    obtain ⟨param, mem, tracks⟩ := tracking
    refine ⟨method, path, query, version, by simp, param, mem, tracks, ?_⟩
    simpa using (Option.some.inj strips).symm

/-- A property that is decided between the separators of a request line is kept by stripping. -/
theorem stripRequestLine_keeps {holds : Str → Prop} {line stripped : Str}
    (cuts : ∀ sep : UInt8, sep = 32 ∨ sep = 38 ∨ sep = 63 → ∀ x y,
      holds (x ++ sep :: y) ↔ holds x ∧ holds y)
    (strips : stripRequestLine line = some stripped) (line_holds : holds line) :
    holds stripped := by
  obtain ⟨method, path, query, version, rfl, -, -, -, rfl⟩ := stripRequestLine_eq_some strips
  rw [cuts 32 (by simp), cuts 32 (by simp), cuts 63 (by simp)] at line_holds
  obtain ⟨method_holds, ⟨path_holds, query_holds⟩, version_holds⟩ := line_holds
  rw [cuts 32 (by simp), cuts 32 (by simp)]
  refine ⟨method_holds, ?_, version_holds⟩
  split
  · exact path_holds
  · rename_i kept_ne
    rw [cuts 63 (by simp), forall_intercalate (cuts 38 (by simp)) kept_ne]
    refine ⟨path_holds, fun param mem => ?_⟩
    have pieces_hold := (forall_intercalate (cuts 38 (by simp)) (List.splitOn_ne_nil 38 query)).mp
      (by rwa [List.intercalate_splitOn])
    exact pieces_hold param (List.mem_filter.mp mem).1

theorem stripRequestLine_pairFree {line stripped : Str}
    (strips : stripRequestLine line = some stripped) (free : PairFree 13 10 line) :
    PairFree 13 10 stripped := by
  refine stripRequestLine_keeps (fun sep among x y => ?_) strips free
  apply pairFree_crlf_append
  · rcases among with rfl | rfl | rfl <;> decide
  · rcases among with rfl | rfl | rfl <;> decide

theorem stripRequestLine_valid {line stripped : Str}
    (strips : stripRequestLine line = some stripped) (valid : Utf8.valid line = true) :
    Utf8.valid stripped = true := by
  refine @stripRequestLine_keeps (Utf8.valid · = true) _ _ (fun sep among x y => ?_) strips valid
  rw [Utf8.valid_append_ascii, Bool.and_eq_true]
  rcases among with rfl | rfl | rfl <;> decide

theorem length_stripRequestLine {line stripped : Str}
    (strips : stripRequestLine line = some stripped) : stripped.length < line.length := by
  obtain ⟨method, path, query, version, rfl, param, mem, tracks, rfl⟩ :=
    stripRequestLine_eq_some strips
  have query_length := length_intercalate_singleton 38 (List.splitOn_ne_nil 38 query)
  rw [List.intercalate_splitOn] at query_length
  have fewer := @sum_map_filter_lt (List UInt8) (!isTrackingParam ·) (·.length + 1) _ _ mem
    (by simp [tracks]) (Nat.succ_pos _)
  rw [← query_length] at fewer
  generalize (query.splitOn 38).filter (!isTrackingParam ·) = kept at fewer ⊢
  split
  · simp only [List.length_append, List.length_cons]
    omega
  · rename_i kept_ne
    rw [← length_intercalate_singleton 38 kept_ne] at fewer
    simp only [List.length_append, List.length_cons]
    omega

/-- A stripped request line still has its two separators. -/
theorem count_stripRequestLine {line stripped : Str}
    (strips : stripRequestLine line = some stripped) : 2 ≤ stripped.count 32 := by
  obtain ⟨method, path, query, version, rfl, -, -, -, rfl⟩ := stripRequestLine_eq_some strips
  simp only [List.count_append, List.count_cons_self]
  omega

/-! ## The filters on lines -/

def isReferer (line : Str) : Bool := lineKeyIn [ascii "referer"] line

def isConditional (line : Str) : Bool :=
  lineKeyIn [ascii "if-none-match", ascii "if-modified-since"] line

/-- The lines with one Referer, the search engine's, at their end. -/
def spoofReferer (lines : List Str) : List Str := lines.filter (!isReferer ·) ++ [googleReferer]

/-- The lines with the tracking parameters of the first one dropped. -/
def stripTarget : List Str → List Str
  | [] => []
  | first :: rest => (stripRequestLine first).getD first :: rest

/-- The lines without conditional fields; an empty line when none is left. -/
def dropConditional (lines : List Str) : List Str :=
  if lines.filter (!isConditional ·) = [] then [[]] else lines.filter (!isConditional ·)

section Filters

variable {lines : List Str} {body : Bytes}

theorem IsHead.spoofReferer (head : IsHead lines) : IsHead (spoofReferer lines) := by
  refine IsHead.snoc ?_ (by simp [googleReferer, ascii, PairFree]) (by decide)
  by_cases none_left : lines.filter (!isReferer ·) = []
  · exact .inl none_left
  · exact .inr (head.sublist List.filter_sublist none_left)

theorem IsHead.stripTarget (head : IsHead lines) : IsHead (stripTarget lines) := by
  cases lines with
  | nil => exact absurd rfl head.ne_nil
  | cons first rest =>
      cases strips : stripRequestLine first with
      | none => simpa [PrivacyEngine.stripTarget, strips] using head
      | some stripped =>
          have free := stripRequestLine_pairFree strips (head.free first List.mem_cons_self)
          simpa [PrivacyEngine.stripTarget, strips] using head.replaceFirst free

theorem IsHead.dropConditional (head : IsHead lines) : IsHead (dropConditional lines) := by
  unfold PrivacyEngine.dropConditional
  split
  · exact .blank
  · rename_i some_left
    exact head.sublist List.filter_sublist some_left

theorem valid_spoofReferer (valid : ∀ line ∈ lines, Utf8.valid line = true) :
    ∀ line ∈ spoofReferer lines, Utf8.valid line = true := by
  refine List.forall_mem_append.mpr ⟨fun line mem => valid line (List.mem_filter.mp mem).1, ?_⟩
  exact List.forall_mem_singleton.mpr (by decide)

theorem valid_stripTarget (valid : ∀ line ∈ lines, Utf8.valid line = true) :
    ∀ line ∈ stripTarget lines, Utf8.valid line = true := by
  cases lines with
  | nil => simp [stripTarget]
  | cons first rest =>
      obtain ⟨first_valid, rest_valid⟩ := List.forall_mem_cons.mp valid
      refine List.forall_mem_cons.mpr ⟨?_, rest_valid⟩
      cases strips : stripRequestLine first with
      | none => exact first_valid
      | some stripped => exact stripRequestLine_valid strips first_valid

theorem valid_dropConditional (valid : ∀ line ∈ lines, Utf8.valid line = true) :
    ∀ line ∈ dropConditional lines, Utf8.valid line = true := by
  unfold dropConditional
  split
  · exact List.forall_mem_singleton.mpr rfl
  · exact fun line mem => valid line (List.mem_filter.mp mem).1

theorem cutHead_head (head : IsHead lines)
    (valid : Utf8.valid (closeHeaders lines ++ body) = true) :
    cutHead (closeHeaders lines ++ body) = some (joinCrlf lines, crlfcrlf ++ body) := by
  have found := head.findSub_close body
  simp only [cutHead, fromUtf8, if_pos valid, Option.bind_eq_bind, Option.bind_some, found]
  rw [closeHeaders, List.append_assoc, List.take_left, List.drop_left]

theorem injectGoogleReferer_head (head : IsHead lines)
    (valid : Utf8.valid (closeHeaders lines ++ body) = true) :
    injectGoogleReferer (closeHeaders lines ++ body) =
      some (closeHeaders (spoofReferer lines) ++ body) := by
  simp only [injectGoogleReferer, cutHead_head head valid, Option.bind_eq_bind, Option.bind_some,
    head.splitCrlf_join]
  rw [closeHeaders, List.append_assoc]
  rfl

/-- The first line of a head is followed by a line end and by bytes that do not depend on it. -/
theorem exists_closeHeaders_cons (rest : List Str) (body : Bytes) :
    ∃ behind, ∀ line, closeHeaders (line :: rest) ++ body = line ++ 13 :: 10 :: behind := by
  cases rest with
  | nil =>
      exact ⟨13 :: 10 :: body, fun line => by simp [closeHeaders, joinCrlf, joinPair, crlfcrlf]⟩
  | cons next rest =>
      exact ⟨closeHeaders (next :: rest) ++ body,
        fun line => by simp [closeHeaders, joinCrlf, joinPair]⟩

theorem stripTrackingQueryParams_head (head : IsHead lines)
    (valid : Utf8.valid (closeHeaders lines ++ body) = true) :
    (stripTrackingQueryParams (closeHeaders lines ++ body)).getD (closeHeaders lines ++ body) =
      closeHeaders (stripTarget lines) ++ body := by
  cases lines with
  | nil => exact absurd rfl head.ne_nil
  | cons first rest =>
      have first_free := head.free first List.mem_cons_self
      obtain ⟨behind, shape⟩ := exists_closeHeaders_cons rest body
      rw [shape] at valid ⊢
      have found := findSub_crlf_of_pairFree first_free behind
      simp only [stripTrackingQueryParams, fromUtf8, if_pos valid, Option.bind_eq_bind,
        Option.bind_some, found, List.take_left, List.drop_left]
      cases strips : stripRequestLine first with
      | none => simp [stripTarget, strips, shape]
      | some stripped => simp [stripTarget, strips, shape]

theorem stripCacheRequestHeaders_head (head : IsHead lines)
    (valid : Utf8.valid (closeHeaders lines ++ body) = true) :
    (stripCacheRequestHeaders (closeHeaders lines ++ body)).getD (closeHeaders lines ++ body) =
      closeHeaders (dropConditional lines) ++ body := by
  simp only [stripCacheRequestHeaders, cutHead_head head valid, Option.bind_eq_bind,
    Option.bind_some, head.splitCrlf_join]
  have closed : closeHeaders (dropConditional lines) =
      closeHeaders (lines.filter (!isConditional ·)) := by
    unfold dropConditional
    split
    · rename_i none_left
      rw [none_left]
      rfl
    · rfl
  split
  · rename_i none_dropped
    have all_kept : lines.filter (!isConditional ·) = lines :=
      List.filter_sublist.eq_of_length none_dropped
    rw [closed, all_kept]
    rfl
  · rw [closed, Option.getD_some, ← List.append_assoc]
    rfl

end Filters

/-! ## Stripping shortens -/

theorem lineKeyIn_ne_nil {names : List Str} {line : Str} (named : lineKeyIn names line = true) :
    line ≠ [] := by
  rintro rfl
  simp [lineKeyIn, splitOnce] at named

theorem length_stripTrackingQueryParams {buf stripped : Bytes}
    (strips : stripTrackingQueryParams buf = some stripped) : stripped.length < buf.length := by
  simp only [stripTrackingQueryParams, fromUtf8, Option.bind_eq_bind, Option.bind_eq_some_iff,
    Option.ite_none_right_eq_some, Option.some.injEq] at strips
  obtain ⟨_, ⟨-, rfl⟩, lineEnd, -, line, strips, rfl⟩ := strips
  have shorter := length_stripRequestLine strips
  have whole := congrArg List.length (List.take_append_drop lineEnd buf)
  rw [List.length_append] at whole ⊢
  omega

theorem length_stripCacheRequestHeaders {buf stripped : Bytes}
    (strips : stripCacheRequestHeaders buf = some stripped) : stripped.length < buf.length := by
  simp only [stripCacheRequestHeaders, cutHead, fromUtf8, Option.bind_eq_bind,
    Option.bind_eq_some_iff, Option.ite_none_right_eq_some, Option.some.injEq, Prod.exists,
    Prod.mk.injEq] at strips
  obtain ⟨_, _, ⟨_, ⟨-, rfl⟩, headerEnd, -, rfl, rfl⟩, strips⟩ := strips
  split at strips
  · cases strips
  · rename_i dropped
    obtain rfl := Option.some.inj strips
    have lines_ne : splitCrlf (buf.take headerEnd) ≠ [] := splitPair_ne_nil 13 10 _
    have joined : joinCrlf (splitCrlf (buf.take headerEnd)) = buf.take headerEnd :=
      joinPair_splitPair 13 10 _
    have lines_length := length_joinPair 13 10 lines_ne
    rw [← joinCrlf, joined] at lines_length
    have shorter := List.length_filter_lt_length_iff_exists.mp
      (lt_of_le_of_ne (List.length_filter_le _ _) dropped)
    obtain ⟨line, mem, conditional⟩ := shorter
    have fewer := @sum_map_filter_lt (List UInt8)
      (!lineKeyIn [ascii "if-none-match", ascii "if-modified-since"] ·) (·.length + 2) _ _ mem
      (by simpa using conditional) (Nat.succ_pos _)
    have whole := congrArg List.length (List.take_append_drop headerEnd buf)
    rw [List.length_append] at whole ⊢
    have line_pos := List.length_pos_iff.mpr (lineKeyIn_ne_nil (by simpa using conditional))
    have line_le := List.single_le_sum (by simp) (line.length + 2)
      (List.mem_map_of_mem (f := fun line : List UInt8 => line.length + 2) mem)
    rw [← lines_length] at fewer line_le
    generalize (splitCrlf (buf.take headerEnd)).filter
      (!lineKeyIn [ascii "if-none-match", ascii "if-modified-since"] ·) = kept at fewer ⊢
    by_cases none_left : kept = []
    · subst none_left
      simp only [joinCrlf, joinPair, List.length_nil]
      omega
    · rw [← length_joinPair 13 10 none_left, ← joinCrlf] at fewer
      omega

/-! ## Filters do not undo each other -/

/-- Length of the lines that are no Referer. -/
def otherLength (lines : List Str) : Nat :=
  (lines.map fun line => if isReferer line then 0 else line.length).sum

theorem isReferer_googleReferer : isReferer googleReferer = true := by decide

theorem otherLength_spoofReferer (lines : List Str) :
    otherLength (spoofReferer lines) = otherLength lines := by
  have other : ∀ lines : List Str,
      otherLength (lines.filter (!isReferer ·)) = otherLength lines := by
    intro lines
    induction lines with
    | nil => rfl
    | cons line lines ih =>
        cases referer : isReferer line with
        | true => simpa [otherLength, referer] using ih
        | false => simpa [otherLength, referer] using ih
  have added : otherLength (spoofReferer lines) = otherLength (lines.filter (!isReferer ·)) := by
    simp [otherLength, spoofReferer, isReferer_googleReferer]
  rw [added, other]

theorem isReferer_of_isConditional {line : Str} (conditional : isConditional line = true) :
    isReferer line = false := by
  unfold isConditional lineKeyIn at conditional
  unfold isReferer lineKeyIn
  cases cut : splitOnce 58 line with
  | none => rfl
  | some pair =>
      simp only [cut, List.any_cons, List.any_nil, Bool.or_false, Bool.or_eq_true,
        eqIgnoreAsciiCase, beq_iff_eq] at conditional ⊢
      rcases conditional with named | named <;> rw [named] <;> decide

/-- Dropping conditional lines changes nothing or leaves less. -/
theorem dropConditional_cases (lines : List Str) (lines_ne : lines ≠ []) :
    dropConditional lines = lines ∨ otherLength (dropConditional lines) < otherLength lines := by
  by_cases free : ∀ line ∈ lines, isConditional line = false
  · have all_kept : lines.filter (!isConditional ·) = lines :=
      List.filter_eq_self.mpr fun line mem => by simp [free line mem]
    exact .inl (by simp [dropConditional, all_kept, lines_ne])
  · push Not at free
    obtain ⟨line, mem, conditional⟩ := free
    rw [Bool.ne_false_iff] at conditional
    have fewer := @sum_map_filter_lt Str (!isConditional ·)
      (fun line => if isReferer line then 0 else line.length) _ _ mem (by simp [conditional])
      (by simpa [isReferer_of_isConditional conditional] using
        List.length_pos_iff.mpr (lineKeyIn_ne_nil conditional))
    refine .inr (lt_of_le_of_lt ?_ fewer)
    unfold dropConditional
    split
    · simp [otherLength]
    · exact le_rfl

/-- Stripping the first line changes nothing or leaves less, unless that line is a Referer. -/
theorem stripTarget_cases {first : Str} (other : isReferer first = false) (rest : List Str) :
    stripTarget (first :: rest) = first :: rest ∨
      otherLength (stripTarget (first :: rest)) < otherLength (first :: rest) := by
  cases strips : stripRequestLine first with
  | none => exact .inl (by simp [stripTarget, strips])
  | some stripped =>
      have shorter := length_stripRequestLine strips
      refine .inr ?_
      simp only [stripTarget, strips, Option.getD_some, otherLength, List.map_cons, List.sum_cons,
        other, Bool.false_eq_true, if_false]
      split <;> omega

theorem stripRequestLine_ne_googleReferer {line stripped : Str}
    (strips : stripRequestLine line = some stripped) : stripped ≠ googleReferer := by
  rintro rfl
  exact absurd (count_stripRequestLine strips) (by decide)

/-- The first line behind a spoofed Referer is no Referer, or it is the only line. -/
theorem spoofReferer_cases (lines : List Str) :
    spoofReferer lines = [googleReferer] ∨
      ∃ first rest, spoofReferer lines = first :: rest ∧ isReferer first = false := by
  unfold spoofReferer
  cases kept : lines.filter (!isReferer ·) with
  | nil => exact .inl rfl
  | cons first rest =>
      have mem : first ∈ lines.filter (!isReferer ·) := by simp [kept]
      exact .inr ⟨first, rest ++ [googleReferer], rfl, by simpa using (List.mem_filter.mp mem).2⟩

/-- Stripping lines behind a spoofed Referer changes nothing or leaves less. -/
theorem stripTarget_spoofReferer_cases (lines : List Str) :
    stripTarget (spoofReferer lines) = spoofReferer lines ∨
      otherLength (stripTarget (spoofReferer lines)) < otherLength lines := by
  rw [← otherLength_spoofReferer lines]
  rcases spoofReferer_cases lines with alone | ⟨first, rest, shape, other⟩
  · rw [alone]
    exact .inl (by decide)
  · rw [shape]
    exact stripTarget_cases other rest

end PrivacyEngine
