import PrivacyEngine.Mitm.Progress
import PrivacyEngine.Mitm.Reframe

/-!
# Where chunked framing is read

The relay looks for two words anywhere in a header block, and takes the body for chunked when it
finds both.  They are found behind every Transfer-Encoding field that names the coding, but also
scattered over other lines; the relay then forgets the length of the body and waits for a last
chunk.
-/

namespace PrivacyEngine

open Wire Reactive

/-! ## Fields and words -/

/-- The value of a line with the given field name. -/
def fieldValue (name line : Str) : Option Str :=
  match splitOnce 58 line with
  | some (key, value) => if eqIgnoreAsciiCase key name then some value else none
  | none => none

/-- Whether a word occurs in a text, in any ASCII case. -/
def mentions (word text : Str) : Bool := contains (toAsciiLowercase text) word

/-- Some line is a Transfer-Encoding field with chunked in its value. -/
def AnnouncesChunked (headerBlock : Bytes) : Prop :=
  ∃ line ∈ splitCrlf headerBlock, ∃ value,
    fieldValue (ascii "transfer-encoding") line = some value ∧
      mentions (ascii "chunked") value = true

/-- Both words occur, but chunked does not occur in any Transfer-Encoding field. -/
structure Scattered (headerBlock : Bytes) : Prop where
  field : ∃ line ∈ splitCrlf headerBlock, mentions (ascii "transfer-encoding:") line = true
  coding : ∃ line ∈ splitCrlf headerBlock, mentions (ascii "chunked") line = true
  apart : ∀ line ∈ splitCrlf headerBlock, ∀ value,
    fieldValue (ascii "transfer-encoding") line = some value →
      mentions (ascii "chunked") value = false

theorem mentions_iff {word text : Str} (inLine : InLine word) :
    mentions word text = true ↔ word <:+: toAsciiLowercase text :=
  contains_iff inLine.ne_nil

/-- A word occurs in a block when it occurs in one of its lines. -/
theorem infix_block_iff {word : Str} (inLine : InLine word) (headerBlock : Bytes) :
    word <:+: toAsciiLowercase headerBlock ↔
      ∃ line ∈ splitCrlf headerBlock, mentions word line = true := by
  simp only [mentions_iff inLine]
  constructor
  · intro occurs
    rw [← joinPair_splitPair 13 10 headerBlock] at occurs
    exact inLine.exists_line occurs
  · rintro ⟨line, mem, inside⟩
    have within : line <:+: headerBlock := by
      rw [← joinPair_splitPair 13 10 headerBlock]
      exact infix_joinPair mem
    exact inside.trans (within.map asciiLower)

/-- A field holds its name and whatever its value holds. -/
theorem infix_of_fieldValue {name line value : Str} (lower : toAsciiLowercase name = name)
    (field : fieldValue name line = some value) :
    name ++ [58] <:+: toAsciiLowercase line ∧
      toAsciiLowercase value <:+: toAsciiLowercase line := by
  unfold fieldValue at field
  split at field
  · rename_i key value' cut
    split at field
    · rename_i named
      cases field
      rw [eqIgnoreAsciiCase, beq_iff_eq, lower] at named
      obtain ⟨rfl, -⟩ := splitOnce_eq_some_iff.mp cut
      have line_lower : toAsciiLowercase (key ++ 58 :: value) =
          name ++ [58] ++ toAsciiLowercase value := by
        rw [toAsciiLowercase, List.map_append, ← toAsciiLowercase, named, List.append_assoc]
        rfl
      rw [line_lower]
      exact ⟨(List.prefix_append _ _).isInfix, (List.suffix_append _ _).isInfix⟩
    · cases field
  · cases field

/-! ## The detector -/

/-- The detector finds two words on any lines. -/
theorem hasTransferEncodingChunked_iff_mentions (headerBlock : Bytes) :
    hasTransferEncodingChunked headerBlock = true ↔
      (∃ line ∈ splitCrlf headerBlock, mentions (ascii "transfer-encoding:") line = true) ∧
        ∃ line ∈ splitCrlf headerBlock, mentions (ascii "chunked") line = true := by
  rw [hasTransferEncodingChunked_iff, infix_block_iff inLine_transferEncoding,
    infix_block_iff inLine_chunked]

theorem AnnouncesChunked.detected {headerBlock : Bytes} (announces : AnnouncesChunked headerBlock) :
    hasTransferEncodingChunked headerBlock = true := by
  obtain ⟨line, mem, value, field, coding⟩ := announces
  obtain ⟨name_inside, value_inside⟩ := infix_of_fieldValue (by decide +kernel) field
  rw [hasTransferEncodingChunked_iff_mentions]
  refine ⟨⟨line, mem, ?_⟩, line, mem, ?_⟩
  · exact (mentions_iff inLine_transferEncoding).mpr name_inside
  · exact (mentions_iff inLine_chunked).mpr
      (((mentions_iff inLine_chunked).mp coding).trans value_inside)

theorem scattered_iff (headerBlock : Bytes) :
    Scattered headerBlock ↔
      hasTransferEncodingChunked headerBlock = true ∧ ¬ AnnouncesChunked headerBlock := by
  rw [hasTransferEncodingChunked_iff_mentions]
  constructor
  · rintro ⟨field, coding, apart⟩
    refine ⟨⟨field, coding⟩, ?_⟩
    rintro ⟨line, mem, value, is_field, inside⟩
    rw [apart line mem value is_field] at inside
    cases inside
  · rintro ⟨⟨field, coding⟩, unannounced⟩
    refine ⟨field, coding, fun line mem value is_field => ?_⟩
    rw [← Bool.not_eq_true]
    exact fun inside => unannounced ⟨line, mem, value, is_field, inside⟩

theorem detected_iff_announced_iff (headerBlock : Bytes) :
    (hasTransferEncodingChunked headerBlock = true ↔ AnnouncesChunked headerBlock) ↔
      ¬ Scattered headerBlock := by
  rw [scattered_iff]
  constructor
  · rintro same ⟨detected, unannounced⟩
    exact unannounced (same.mp detected)
  · intro together
    refine ⟨fun detected => ?_, AnnouncesChunked.detected⟩
    by_contra unannounced
    exact together ⟨detected, unannounced⟩

/-! ## The relay -/

/-- While a body is held back, the relay waits for a last chunk exactly when the held headers
announce one, and otherwise for the announced length. -/
def FramedByField (t : RelayState) : Prop :=
  t.bufferingBody = true → ∀ headers, t.deferredHeaders = some headers →
    (t.bufferingChunked = true ↔ AnnouncesChunked headers) ∧
      (¬ AnnouncesChunked headers → t.expectedBodyLen = extractContentLength headers)

namespace RelayEnv

variable (env : RelayEnv)

/-- A read completes a header block with scattered words, and its body is held back. -/
def OpensScattered (reads : List Bytes) (chunk : Bytes) : Prop :=
  ¬ HeadersFound reads ∧
    ∃ headers after, env.Opened (reads ++ [chunk]) headers after ∧ env.Holds headers ∧
      Scattered headers

variable {env} {t : RelayState} {headers body : Bytes}

theorem Represents.framedByField_iff (represents : env.Represents t (.holdingBody headers body)) :
    FramedByField t ↔ ¬ Scattered headers := by
  obtain ⟨-, -, holding, -, -, -, deferred, chunked, expected, -⟩ := represents
  rw [← detected_iff_announced_iff]
  constructor
  · intro framed
    rw [← chunked]
    exact (framed holding headers deferred).1
  · intro same _ headers' deferred'
    obtain rfl : headers = headers' := Option.some.inj (deferred.symm.trans deferred')
    rw [chunked, expected]
    exact ⟨same, fun unannounced => if_neg fun detected => unannounced (same.mp detected)⟩

variable {events : List RelayEvent} {outputs : List Effect}
  {status : Status RelayState RelayVerdict}

theorem framedByField_of_run (execution : env.relay.Run {} events outputs (.running t))
    (together : ∀ front chunk, front ++ [chunk] <+: upstreamReads events →
      ¬ env.OpensScattered front chunk) : FramedByField t := by
  intro holding
  obtain ⟨headers, body, represents, phase⟩ := holding_of_run execution holding
  refine represents.framedByField_iff.mpr (fun scattered => ?_) holding
  obtain ⟨front, chunk, after, early, unfound, opened, holds⟩ := opened_of_holding phase
  exact together front chunk early ⟨unfound, headers, after, opened, holds, scattered⟩

/-- A block is taken for chunked because of its Transfer-Encoding field, unless the two words are
scattered over it; and no state along a run of the relay is framed in another way than the field
says if and only if no held body comes behind such a block. -/
theorem chunked_by_field_iff (execution : env.relay.Run {} events outputs status) :
    (∀ headerBlock,
      (hasTransferEncodingChunked headerBlock = true ↔ AnnouncesChunked headerBlock) ↔
        ¬ Scattered headerBlock) ∧
    ((∀ seen rest earlier t, events = seen ++ rest →
        env.relay.Run {} seen earlier (.running t) → FramedByField t) ↔
      ∀ front chunk, front ++ [chunk] <+: upstreamReads events →
        ¬ env.OpensScattered front chunk) := by
  refine ⟨detected_iff_announced_iff, fun framed => ?_, fun together => ?_⟩
  · rintro front chunk early ⟨unfound, headers, after, opened, holds, scattered⟩
    obtain ⟨seen, rest, earlier, t, cut, first, represents⟩ :=
      run_holds_of_opened execution early unfound opened holds
    exact represents.framedByField_iff.mp (framed seen rest earlier t cut first) scattered
  · intro seen rest earlier t cut first
    refine framedByField_of_run first fun front chunk early => together front chunk (early.trans ?_)
    rw [cut]
    exact ⟨upstreamReads rest, by simp [upstreamReads]⟩

/-! ## Two unrelated headers -/

/-- A page of known length, with the two words in other fields. -/
def scatteredPage : Bytes :=
  ascii "HTTP/1.1 200 OK\r\nContent-Type: text/html\r\nContent-Length: 2\r\n" ++
    ascii "X-Transfer-Encoding: none\r\nX-Mode: chunked\r\n\r\n"

def scatteredEvents : List RelayEvent :=
  [.upstreamRead ⟨scatteredPage, by decide +kernel, by decide +kernel⟩,
    .upstreamRead ⟨ascii "hi", by decide, by decide⟩]

theorem scattered_run :
    ∃ outputs t, (pageTunnel .enforce).relay.Run {} scatteredEvents outputs (.running t) ∧
      clientBytes outputs = [] ∧ t.bufferingBody = true ∧ t.bufferingChunked = true ∧
      t.deferredHeaders = some scatteredPage := by
  have executes : ((pageTunnel .enforce).relay.run {} scatteredEvents).map (fun reaction =>
      (clientBytes reaction.outputs,
        reaction.status.state?.map fun t =>
          (t.bufferingBody, t.bufferingChunked, t.deferredHeaders))) =
      some ([], some (true, true, some scatteredPage)) := by
    decide +kernel
  obtain ⟨outputs, status, execution, observed⟩ := Machine.exists_run _ _ _ _ executes
  obtain ⟨silent, reached⟩ := Prod.mk.inj observed
  obtain ⟨t, goes_on, state⟩ := Option.map_eq_some_iff.mp reached
  obtain rfl := Status.eq_running goes_on
  obtain ⟨holding, state⟩ := Prod.mk.inj state
  obtain ⟨chunked, deferred⟩ := Prod.mk.inj state
  exact ⟨outputs, t, execution, silent, holding, chunked, deferred⟩

theorem scatteredPage_unannounced : ¬ AnnouncesChunked scatteredPage := by
  have scattered : ∀ line ∈ splitCrlf scatteredPage,
      (fieldValue (ascii "transfer-encoding") line).all fun value =>
        !mentions (ascii "chunked") value := by
    decide +kernel
  rintro ⟨line, mem, value, field, coding⟩
  have apart := scattered line mem
  rw [field] at apart
  simp [coding] at apart

/-- The page is complete, and the relay sends nothing of it and waits for a last chunk. -/
theorem scattered_page_stalls :
    hasTransferEncodingChunked scatteredPage = true ∧ ¬ AnnouncesChunked scatteredPage ∧
      ∃ outputs t, (pageTunnel .enforce).relay.Run {} scatteredEvents outputs (.running t) ∧
        clientBytes outputs = [] ∧ ¬ FramedByField t := by
  obtain ⟨outputs, t, execution, silent, holding, chunked, deferred⟩ := scattered_run
  refine ⟨by decide +kernel, scatteredPage_unannounced, outputs, t, execution, silent, ?_⟩
  intro framed
  exact scatteredPage_unannounced ((framed holding scatteredPage deferred).1.mp chunked)

theorem scattered_page_opens :
    ¬ ∀ front chunk, front ++ [chunk] <+: upstreamReads scatteredEvents →
      ¬ (pageTunnel .enforce).OpensScattered front chunk := by
  obtain ⟨outputs, t, execution, -, holding, chunked, deferred⟩ := scattered_run
  rw [← (chunked_by_field_iff execution).2]
  intro framed
  have now := framed scatteredEvents [] outputs t (by simp) execution
  exact scatteredPage_unannounced ((now holding scatteredPage deferred).1.mp chunked)

end RelayEnv

end PrivacyEngine
