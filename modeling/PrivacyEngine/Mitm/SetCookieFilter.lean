import PrivacyEngine.Mitm.Reframe

/-!
# The Set-Cookie filter on well-formed blocks

The filter splits the block behind its last line end, so the empty piece in front of that end is
rebuilt as a line of its own.  The lines that are kept are right and their number is, but an empty
line too many stands in front of the body.
-/

namespace PrivacyEngine

open Wire

/-- A header block of lines closed by CRLF, without a bare line feed, up to its first empty line. -/
structure HeaderBlock where
  statusLine : Bytes
  fields : List Bytes
  no_lf : ∀ line ∈ statusLine :: fields, 10 ∉ line
  filled : ∀ line ∈ fields, line ≠ []

def isSetCookie (line : Bytes) : Bool := startsWithAsciiCaseInsensitive line setCookieField

namespace HeaderBlock

variable (block : HeaderBlock)

def bytes : Bytes := closeHeaders (block.statusLine :: block.fields)

/-- The block without its Set-Cookie lines. -/
def withoutCookies : HeaderBlock where
  statusLine := block.statusLine
  fields := block.fields.filter (!isSetCookie ·)
  no_lf line mem := block.no_lf line (List.cons_subset_cons _ List.filter_sublist.subset mem)
  filled line mem := block.filled line (List.filter_sublist.subset mem)

/-- The block ends at its first empty line, whatever follows. -/
theorem findHeadersEnd_bytes (body : Bytes) :
    findHeadersEnd (block.bytes ++ body) = some block.bytes.length := by
  have free : ∀ line ∈ block.statusLine :: block.fields, PairFree 13 10 line := by
    intro line mem
    rw [pairFree_iff]
    intro left right eq
    exact block.no_lf line mem (by rw [eq]; simp)
  rw [findHeadersEnd, bytes, closeHeaders, joinCrlf,
    findSub_crlfcrlf_joinPair (List.cons_ne_nil _ _) block.filled free body]
  simp [crlfcrlf]

/-- The filter sees the lines of the block and an empty one. -/
theorem headerLines_bytes (body : Bytes) :
    headerLines (block.bytes ++ body) block.bytes.length =
      block.statusLine :: (block.fields ++ [[]]) := by
  have closed := closeHeaders_eq_flatMap (block.statusLine :: block.fields) (List.cons_ne_nil _ _)
  have cut : (block.bytes ++ body).take (block.bytes.length - 2) =
      (block.statusLine :: block.fields).flatMap (· ++ crlf) := by
    rw [bytes, closed, List.length_append, show crlf.length = 2 from rfl, Nat.add_sub_cancel,
      List.append_assoc, List.take_left]
  have whole : (block.statusLine :: block.fields).flatMap linePieces =
      block.statusLine :: block.fields := by
    rw [List.flatMap_congr fun line mem => linePieces_of_no_lf (block.no_lf line mem),
      List.flatMap_singleton']
  rw [headerLines, cut, map_stripTrailingCr_closed, whole]
  rfl

theorem rebuildHeaders_blank (rest : Bytes) :
    rebuildHeaders block.statusLine (block.fields ++ [[]]) rest = block.bytes ++ crlf ++ rest := by
  rw [bytes, closeHeaders_eq_flatMap _ (List.cons_ne_nil _ _)]
  simp [rebuildHeaders]

end HeaderBlock

namespace PolicyEngine

variable (engine : PolicyEngine) (host : Str) (sourceIp : Option Str)

/-- The filter deletes the Set-Cookie lines of a block, counts them, and does nothing else. -/
structure DeletesExactly (block : HeaderBlock) (body : Bytes) : Prop where
  deleted :
    (engine.applyHttp1ResponseHeaderPolicy host (block.bytes ++ body) sourceIp).outputHeaders =
    block.withoutCookies.bytes ++ body
  counted :
    (engine.applyHttp1ResponseHeaderPolicy host (block.bytes ++ body) sourceIp).setCookieCount =
    block.fields.countP isSetCookie

variable {engine host sourceIp}

/-- The kept lines are right and so is their number, but there is an empty line too many. -/
theorem filtered_block (enforcing : engine.cfg.mode = .enforce)
    (filtering : (engine.planForHostWithSourceIp host sourceIp).enableHttp1SetCookieFilter = true)
    (block : HeaderBlock) (body : Bytes) :
    (engine.applyHttp1ResponseHeaderPolicy host (block.bytes ++ body) sourceIp).outputHeaders =
        block.withoutCookies.bytes ++ crlf ++ body ∧
      (engine.applyHttp1ResponseHeaderPolicy host (block.bytes ++ body) sourceIp).setCookieCount =
        block.fields.countP isSetCookie := by
  have blank : isSetCookie [] = false := by decide
  have kept : (block.fields ++ [[]]).filter (!isSetCookie ·) =
      block.withoutCookies.fields ++ [[]] := by
    simp [HeaderBlock.withoutCookies, blank]
  have rebuilt := block.withoutCookies.rebuildHeaders_blank body
  simp only [applyHttp1ResponseHeaderPolicy, filtering, Bool.not_true, Bool.false_eq_true, if_false,
    block.findHeadersEnd_bytes, block.headerLines_bytes, planForHostWithSourceIp_mode, enforcing,
    if_true, List.drop_left]
  refine ⟨?_, ?_⟩
  · rw [← rebuilt, ← kept]
    rfl
  · change (block.fields ++ [[]]).countP isSetCookie = _
    rw [List.countP_append, List.countP_singleton, blank]
    simp

/-- Under enforcement the filter never deletes the Set-Cookie lines and nothing else: the body is
always behind an empty line of its own, also when there is no Set-Cookie line, and filtering once
more puts another one in front of it. -/
theorem never_deletes_exactly (enforcing : engine.cfg.mode = .enforce)
    (filtering : (engine.planForHostWithSourceIp host sourceIp).enableHttp1SetCookieFilter = true)
    (block : HeaderBlock) (body : Bytes) :
    ¬ engine.DeletesExactly host sourceIp block body ∧
      (engine.applyHttp1ResponseHeaderPolicy host (block.bytes ++ body) sourceIp).setCookieCount =
        block.fields.countP isSetCookie ∧
      ∃ output,
        (engine.applyHttp1ResponseHeaderPolicy host (block.bytes ++ body) sourceIp).outputHeaders =
          output ∧
        findHeadersEnd output = some block.withoutCookies.bytes.length ∧
        output.drop block.withoutCookies.bytes.length = crlf ++ body ∧
        ((∀ line ∈ block.fields, isSetCookie line = false) → output ≠ block.bytes ++ body) ∧
        (engine.applyHttp1ResponseHeaderPolicy host output sourceIp).outputHeaders ≠ output := by
  obtain ⟨output_eq, counted⟩ := filtered_block enforcing filtering block body
  have longer (front rest : Bytes) : front ++ crlf ++ rest ≠ front ++ rest := by
    intro same
    have lengths := congrArg List.length same
    simp only [List.length_append, show crlf.length = 2 from rfl] at lengths
    omega
  refine ⟨fun exactly => ?_, counted, _, output_eq, ?_, ?_, fun none_set => ?_, ?_⟩
  · exact longer _ _ (output_eq.symm.trans exactly.deleted)
  · rw [List.append_assoc]
    exact block.withoutCookies.findHeadersEnd_bytes _
  · rw [List.append_assoc, List.drop_left]
  · have same : block.withoutCookies.bytes = block.bytes := by
      change closeHeaders (block.statusLine :: block.fields.filter (!isSetCookie ·)) = _
      rw [List.filter_eq_self.mpr fun line mem => by simp [none_set line mem], HeaderBlock.bytes]
    rw [same]
    exact longer _ _
  · have twice := (filtered_block enforcing filtering block.withoutCookies (crlf ++ body)).1
    rw [← List.append_assoc] at twice
    have same : block.withoutCookies.withoutCookies.bytes = block.withoutCookies.bytes := by
      simp [HeaderBlock.bytes, HeaderBlock.withoutCookies]
    rw [twice, same, List.append_assoc _ crlf (crlf ++ body), List.append_assoc _ crlf body]
    exact fun again => longer [] (crlf ++ body) (List.append_cancel_left again)

/-- A response with one Set-Cookie line. -/
def sampleBlock : HeaderBlock where
  statusLine := ascii "HTTP/1.1 200 OK"
  fields := [ascii "Set-Cookie: id=1"]
  no_lf := by decide
  filled := by decide

theorem sampleBlock_shifts_body :
    ∃ output,
      (({ cfg := .defaultForMode .enforce } : PolicyEngine).applyHttp1ResponseHeaderPolicy
        (ascii "doubleclick.net") (sampleBlock.bytes ++ ascii "body") none).outputHeaders = output ∧
      output.drop sampleBlock.withoutCookies.bytes.length = crlf ++ ascii "body" := by
  have filtering : (({ cfg := .defaultForMode .enforce } : PolicyEngine).planForHostWithSourceIp
      (ascii "doubleclick.net") none).enableHttp1SetCookieFilter = true := by decide +kernel
  obtain ⟨-, -, output, output_eq, -, shifted, -⟩ :=
    never_deletes_exactly rfl filtering sampleBlock (ascii "body")
  exact ⟨output, output_eq, shifted⟩

theorem sampleBlock_not_deleted_exactly :
    ¬ ({ cfg := .defaultForMode .enforce } : PolicyEngine).DeletesExactly
      (ascii "doubleclick.net") none sampleBlock (ascii "body") := by
  intro exactly
  exact absurd exactly.deleted (by decide +kernel)

end PolicyEngine

end PrivacyEngine
