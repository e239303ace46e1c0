import PrivacyEngine.Mitm.RequestFilter
import PrivacyEngine.Wire.Spaceless

/-!
# What the request filters change

A first request is a request line with a path and query parameters, header lines and a body.  The
enabled filters together drop the tracking parameters and the lines of the removed fields, and
append the search engine's Referer; the rest comes out as it went in, and a second pass changes
nothing.  A request line is dropped like a field when the text before its first colon is the name of
one, so it must not be: neither as received nor without its tracking parameters.
-/

namespace PrivacyEngine

open Wire

/-! ## Requests -/

/-- A first request in parts.  Without parameters its target has no question mark. -/
structure HttpRequest where
  method : Str
  path : Str
  params : List Str
  version : Str
  headers : List Str
  body : Bytes

namespace HttpRequest

def target (request : HttpRequest) : Str :=
  if request.params = [] then request.path
  else request.path ++ 63 :: [38].intercalate request.params

def requestLine (request : HttpRequest) : Str :=
  request.method ++ 32 :: (request.target ++ 32 :: request.version)

def lines (request : HttpRequest) : List Str := request.requestLine :: request.headers

def bytes (request : HttpRequest) : Bytes := closeHeaders request.lines ++ request.body

/-- The parts can be told apart in the bytes, and the bytes are a text. -/
structure WellFormed (request : HttpRequest) : Prop where
  method : 32 ∉ request.method
  path : 32 ∉ request.path
  unqueried : 63 ∉ request.path
  params : ∀ param ∈ request.params, 32 ∉ param ∧ 38 ∉ param
  head : IsHead request.lines
  valid : Utf8.valid request.bytes = true

/-! ## The filters -/

def spoofed (request : HttpRequest) : HttpRequest :=
  { request with headers := request.headers.filter (!isReferer ·) ++ [googleReferer] }

def untracked (request : HttpRequest) : HttpRequest :=
  { request with params := request.params.filter (!isTrackingParam ·) }

def unconditional (request : HttpRequest) : HttpRequest :=
  { request with headers := request.headers.filter (!isConditional ·) }

/-- The request as the enabled filters should leave it. -/
def rewritten (spoof strip tracker : Bool) (request : HttpRequest) : HttpRequest :=
  { request with
    params :=
      if strip then request.params.filter (!isTrackingParam ·) else request.params
    headers :=
      request.headers.filter
          (fun line => !(spoof && isReferer line || tracker && isConditional line)) ++
        if spoof then [googleReferer] else [] }

end HttpRequest

/-- The filters one behind the other; each falls through where it does not apply. -/
def rewriteRequest (spoof strip tracker : Bool) (buf : Bytes) : Bytes :=
  onlyIf tracker (applied stripCacheRequestHeaders)
    (onlyIf strip (applied stripTrackingQueryParams)
      (onlyIf spoof (applied injectGoogleReferer) buf))

/-- The names of the fields whose lines are removed. -/
def removedNames : List Str :=
  [ascii "referer", ascii "if-none-match", ascii "if-modified-since"]

namespace HttpRequest

variable {request other : HttpRequest}

theorem rewritten_eq (spoof strip tracker : Bool) (request : HttpRequest) :
    request.rewritten spoof strip tracker =
      onlyIf tracker unconditional (onlyIf strip untracked (onlyIf spoof spoofed request)) := by
  have kept : isConditional googleReferer = false := by decide
  cases spoof <;> cases strip <;> cases tracker <;>
    simp [rewritten, onlyIf, spoofed, untracked, unconditional, List.filter_filter, kept,
      Bool.and_comm]

theorem rewritten_rewritten (spoof strip tracker : Bool) (request : HttpRequest) :
    (request.rewritten spoof strip tracker).rewritten spoof strip tracker =
      request.rewritten spoof strip tracker := by
  cases spoof <;> cases strip <;> cases tracker <;>
    simp [rewritten, List.filter_filter, isReferer_googleReferer]

/-! ## Cutting the request line -/

section Cuts

theorem space_not_mem_target (wellFormed : request.WellFormed) : 32 ∉ request.target := by
  rw [target]
  split
  · exact wellFormed.path
  · rename_i some_params
    have cuts : ∀ x y : Str, 32 ∉ x ++ 38 :: y ↔ 32 ∉ x ∧ 32 ∉ y := by simp
    have spaceless :=
      (@forall_intercalate UInt8 (32 ∉ ·) 38 cuts _ some_params).mpr fun param mem =>
      (wellFormed.params param mem).1
    simp only [List.mem_append, List.mem_cons, not_or]
    exact ⟨wellFormed.path, by decide, spaceless⟩

theorem splitOnce_requestLine (wellFormed : request.WellFormed) :
    splitOnce 32 request.requestLine =
      some (request.method, request.target ++ 32 :: request.version) :=
  splitOnce_eq_some_iff.mpr ⟨rfl, wellFormed.method⟩

theorem splitOnce_afterMethod (wellFormed : request.WellFormed) :
    splitOnce 32 (request.target ++ 32 :: request.version) =
      some (request.target, request.version) :=
  splitOnce_eq_some_iff.mpr ⟨rfl, space_not_mem_target wellFormed⟩

theorem splitOnce_target (wellFormed : request.WellFormed) :
    splitOnce 63 request.target =
      if request.params = [] then none
      else some (request.path, [38].intercalate request.params) := by
  rw [target]
  split
  · exact splitOnce_eq_none_iff.mpr wellFormed.unqueried
  · exact splitOnce_eq_some_iff.mpr ⟨rfl, wellFormed.unqueried⟩

theorem splitOn_params (wellFormed : request.WellFormed) (some_params : request.params ≠ []) :
    ([38].intercalate request.params).splitOn 38 = request.params :=
  List.splitOn_intercalate 38 (fun param mem => (wellFormed.params param mem).2) some_params

/-- The request line changes when one of the parameters is a tracking one. -/
theorem stripRequestLine_requestLine (wellFormed : request.WellFormed) :
    stripRequestLine request.requestLine =
      if request.params.any isTrackingParam = true then some request.untracked.requestLine
      else none := by
  simp only [stripRequestLine, Option.bind_eq_bind, splitOnce_requestLine wellFormed,
    splitOnce_afterMethod wellFormed, splitOnce_target wellFormed, Option.bind_some]
  by_cases no_params : request.params = []
  · simp [no_params]
  · simp only [if_neg no_params, Option.bind_some, splitOn_params wellFormed no_params]
    by_cases tracks : request.params.any isTrackingParam = true
    · simp [tracks, requestLine, untracked, target]
    · simp [tracks]

/-- The parts of a well-formed request are determined by its bytes. -/
theorem bytes_injective (wellFormed : request.WellFormed) (wellFormed' : other.WellFormed)
    (same : request.bytes = other.bytes) : request = other := by
  obtain ⟨lines_eq, body_eq⟩ := wellFormed.head.unique wellFormed'.head same
  obtain ⟨line_eq, headers_eq⟩ := List.cons.inj lines_eq
  have first := splitOnce_requestLine wellFormed
  rw [line_eq, splitOnce_requestLine wellFormed'] at first
  obtain ⟨method_eq, behind_eq⟩ := Prod.mk.inj (Option.some.inj first)
  have second := splitOnce_afterMethod wellFormed
  rw [← behind_eq, splitOnce_afterMethod wellFormed'] at second
  obtain ⟨target_eq, version_eq⟩ := Prod.mk.inj (Option.some.inj second)
  have third := splitOnce_target wellFormed
  rw [← target_eq, splitOnce_target wellFormed'] at third
  have query_eq : request.path = other.path ∧ request.params = other.params := by
    by_cases no_params : request.params = []
    · by_cases no_params' : other.params = []
      · rw [target, target, if_pos no_params, if_pos no_params'] at target_eq
        exact ⟨target_eq.symm, no_params.trans no_params'.symm⟩
      · rw [if_pos no_params, if_neg no_params'] at third
        cases third
    · by_cases no_params' : other.params = []
      · rw [if_neg no_params, if_pos no_params'] at third
        cases third
      · rw [if_neg no_params, if_neg no_params'] at third
        obtain ⟨path_eq, joined⟩ := Prod.mk.inj (Option.some.inj third)
        refine ⟨path_eq.symm, ?_⟩
        rw [← splitOn_params wellFormed no_params, ← joined, splitOn_params wellFormed' no_params']
  obtain ⟨method, path, params, version, headers, body⟩ := request
  obtain ⟨method', path', params', version', headers', body'⟩ := other
  obtain ⟨rfl, rfl⟩ := query_eq
  cases method_eq
  cases version_eq
  cases headers_eq
  cases body_eq
  rfl

/-- Every text that starts with a head with a method, a target and a version in its first line is a
request. -/
theorem exists_of_holdsHead {method uri version : Str} {headers : List Str} {body buf : Bytes}
    (holds : RelayEnv.HoldsHead body buf ((method ++ 32 :: (uri ++ 32 :: version)) :: headers))
    (method_spaceless : 32 ∉ method) (uri_spaceless : 32 ∉ uri) :
    ∃ request : HttpRequest, request.WellFormed ∧ request.bytes = buf := by
  have valid := holds.buf_valid
  cases cut : splitOnce 63 uri with
  | none =>
      refine ⟨⟨method, uri, [], version, headers, body⟩, ?_, holds.eq.symm⟩
      exact ⟨method_spaceless, uri_spaceless, splitOnce_eq_none_iff.mp cut, by simp,
        holds.head, valid⟩
  | some parts =>
      obtain ⟨path, query⟩ := parts
      obtain ⟨rfl, unqueried⟩ := splitOnce_eq_some_iff.mp cut
      rw [List.mem_append, List.mem_cons, not_or, not_or] at uri_spaceless
      have target_eq : (⟨method, path, query.splitOn 38, version, headers, body⟩ :
          HttpRequest).target = path ++ 63 :: query := by
        rw [target, if_neg (List.splitOn_ne_nil 38 query), List.intercalate_splitOn]
      have lines_eq : (⟨method, path, query.splitOn 38, version, headers, body⟩ :
          HttpRequest).lines =
            (method ++ 32 :: (path ++ 63 :: query ++ 32 :: version)) :: headers := by
        rw [lines, requestLine, target_eq]
      refine ⟨⟨method, path, query.splitOn 38, version, headers, body⟩, ?_, ?_⟩
      · refine ⟨method_spaceless, uri_spaceless.1, unqueried, fun param mem => ⟨?_, ?_⟩, ?_, ?_⟩
        · have within : param <:+: query := by
            have joined : param <:+: [38].intercalate (query.splitOn 38) := infix_intercalate mem
            rwa [List.intercalate_splitOn] at joined
          exact fun space => uri_spaceless.2.2 (within.subset space)
        · exact not_mem_of_mem_splitOn mem
        · rw [lines_eq]
          exact holds.head
        · rw [bytes, lines_eq]
          exact valid
      · rw [bytes, lines_eq]
        exact holds.eq.symm

end Cuts

/-! ## Request lines taken for fields -/

/-- The request line is not taken for a removed field, whether it is stripped or not. -/
structure Unnamed (strip : Bool) (request : HttpRequest) : Prop where
  received : lineKeyIn removedNames request.requestLine = false
  stripped : strip = true → lineKeyIn removedNames request.untracked.requestLine = false

theorem lineKeyIn_append (names names' : List Str) (line : Str) :
    lineKeyIn (names ++ names') line = (lineKeyIn names line || lineKeyIn names' line) := by
  unfold lineKeyIn
  cases splitOnce 58 line with
  | none => rfl
  | some cut => exact List.any_append

theorem lineKeyIn_removedNames (line : Str) :
    lineKeyIn removedNames line = (isReferer line || isConditional line) :=
  lineKeyIn_append [ascii "referer"] [ascii "if-none-match", ascii "if-modified-since"] line

theorem lineKeyIn_of_colonless (names : List Str) {line : Str} (colonless : 58 ∉ line) :
    lineKeyIn names line = false := by
  rw [lineKeyIn, splitOnce_eq_none_iff.mpr colonless]

/-- The name of a line stands in front of its first colon. -/
theorem lineKeyIn_append_of_mem (names : List Str) {front : Str} (mem : 58 ∈ front) (back : Str) :
    lineKeyIn names (front ++ back) = lineKeyIn names front := by
  cases cut : splitOnce 58 front with
  | none => exact absurd mem (splitOnce_eq_none_iff.mp cut)
  | some parts =>
      obtain ⟨key, value⟩ := parts
      obtain ⟨rfl, fresh⟩ := splitOnce_eq_some_iff.mp cut
      have longer : splitOnce 58 (key ++ 58 :: value ++ back) = some (key, value ++ back) :=
        splitOnce_eq_some_iff.mpr ⟨by simp, fresh⟩
      rw [lineKeyIn, longer, lineKeyIn, cut]

/-- A line with a question mark in front of its first colon is no removed field. -/
theorem lineKeyIn_of_question {front : Str} (colonless : 58 ∉ front) (back : Str) :
    lineKeyIn removedNames (front ++ 63 :: back) = false := by
  unfold lineKeyIn
  cases cut : splitOnce 58 (front ++ 63 :: back) with
  | none => rfl
  | some parts =>
      obtain ⟨key, value⟩ := parts
      obtain ⟨whole, -⟩ := splitOnce_eq_some_iff.mp cut
      have question : 63 ∈ key := by
        rcases List.append_eq_append_iff.mp whole with ⟨more, rfl, rest⟩ | ⟨less, rfl, rest⟩
        · cases more with
          | nil => cases rest
          | cons b more =>
              obtain ⟨rfl, -⟩ := List.cons.inj rest
              simp
        · cases less with
          | nil => cases rest
          | cons b less =>
              obtain ⟨rfl, -⟩ := List.cons.inj rest
              simp at colonless
      have trimmed : asciiLower 63 ∈ toAsciiLowercase (trim key) :=
        List.mem_map_of_mem (mem_trim_of_solid ⟨by decide, by decide⟩ question)
      refine List.any_eq_false.mpr fun name mem named => ?_
      have names_lack : ∀ name ∈ removedNames, asciiLower 63 ∉ toAsciiLowercase name := by
        decide +kernel
      rw [eqIgnoreAsciiCase, beq_iff_eq] at named
      rw [named] at trimmed
      exact names_lack name mem trimmed

/-- What follows the path in the request line. -/
def afterPath (request : HttpRequest) : Str :=
  if request.params = [] then 32 :: request.version
  else 63 :: ([38].intercalate request.params ++ 32 :: request.version)

theorem requestLine_eq (request : HttpRequest) :
    request.requestLine = request.method ++ 32 :: request.path ++ request.afterPath := by
  rw [requestLine, target, afterPath]
  split <;> simp

/-- In front of a version without a colon, stripping does not turn a request line into a removed
field. -/
theorem unnamed_of_version {strip : Bool} (colonless : 58 ∉ request.version)
    (received : lineKeyIn removedNames request.requestLine = false) : request.Unnamed strip := by
  refine ⟨received, fun _ => ?_⟩
  rw [requestLine_eq] at received ⊢
  by_cases early : 58 ∈ request.method ++ 32 :: request.path
  · rw [lineKeyIn_append_of_mem _ early] at received
    exact (lineKeyIn_append_of_mem _ early _).trans received
  · rw [afterPath]
    split
    · have no_colon : 58 ∉ request.method ++ 32 :: request.path ++ 32 :: request.version := by
        rw [List.mem_append, List.mem_cons, not_or, not_or]
        exact ⟨early, by decide, colonless⟩
      exact lineKeyIn_of_colonless _ no_colon
    · exact lineKeyIn_of_question early _

/-! ## The filters on requests -/

namespace WellFormed

theorem holdsHead (wellFormed : request.WellFormed) :
    RelayEnv.HoldsHead request.body request.bytes request.lines :=
  RelayEnv.holdsHead_of_valid wellFormed.head wellFormed.valid

theorem referer (wellFormed : request.WellFormed)
    (unnamed : isReferer request.requestLine = false) :
    applied injectGoogleReferer request.bytes = request.spoofed.bytes ∧
      request.spoofed.WellFormed := by
  have lines_eq : spoofReferer request.lines = request.spoofed.lines := by
    rw [spoofReferer, lines, List.filter_cons_of_pos (by rw [unnamed]; rfl)]
    rfl
  have holds := wellFormed.holdsHead.referer
  rw [lines_eq] at holds
  exact ⟨holds.eq, { wellFormed with head := holds.head, valid := holds.buf_valid }⟩

theorem query (wellFormed : request.WellFormed) :
    applied stripTrackingQueryParams request.bytes = request.untracked.bytes ∧
      request.untracked.WellFormed := by
  have line_eq : (stripRequestLine request.requestLine).getD request.requestLine =
      request.untracked.requestLine := by
    rw [stripRequestLine_requestLine wellFormed]
    split
    · rfl
    · rename_i none_tracks
      have all_kept : request.params.filter (!isTrackingParam ·) = request.params :=
        List.filter_eq_self.mpr fun param mem => by
          simp only [List.any_eq_true, not_exists, not_and, Bool.not_eq_true] at none_tracks
          rw [none_tracks param mem]
          rfl
      rw [untracked, all_kept]
      rfl
  have lines_eq : stripTarget request.lines = request.untracked.lines := by
    rw [lines, stripTarget, line_eq]
    rfl
  have holds := wellFormed.holdsHead.query
  rw [lines_eq] at holds
  refine ⟨holds.eq,
    { wellFormed with params := ?_, head := holds.head, valid := holds.buf_valid }⟩
  exact fun param mem => wellFormed.params param (List.mem_filter.mp mem).1

theorem cache (wellFormed : request.WellFormed)
    (unnamed : isConditional request.requestLine = false) :
    applied stripCacheRequestHeaders request.bytes = request.unconditional.bytes ∧
      request.unconditional.WellFormed := by
  have lines_eq : dropConditional request.lines = request.unconditional.lines := by
    rw [dropConditional, lines, List.filter_cons_of_pos (by rw [unnamed]; rfl),
      if_neg (List.cons_ne_nil _ _)]
    rfl
  have holds := wellFormed.holdsHead.cache
  rw [lines_eq] at holds
  exact ⟨holds.eq, { wellFormed with head := holds.head, valid := holds.buf_valid }⟩

/-- A filter that can only shorten does not apply exactly when it should change nothing. -/
theorem eq_none_iff {filter : Bytes → Option Bytes}
    (shortens : ∀ {buf out}, filter buf = some out → out.length < buf.length)
    (wellFormed : request.WellFormed)
    (after : applied filter request.bytes = other.bytes ∧ other.WellFormed) :
    filter request.bytes = none ↔ other = request := by
  constructor
  · intro unchanged
    have same := after.1
    rw [applied_eq_self unchanged] at same
    exact bytes_injective after.2 wellFormed same.symm
  · rintro rfl
    exact eq_none_of_applied shortens after.1

theorem stripTrackingQueryParams_eq_none_iff (wellFormed : request.WellFormed) :
    stripTrackingQueryParams request.bytes = none ↔
      ∀ param ∈ request.params, isTrackingParam param = false := by
  rw [wellFormed.eq_none_iff length_stripTrackingQueryParams wellFormed.query]
  obtain ⟨method, path, params, version, headers, body⟩ := request
  simp [untracked]

theorem stripCacheRequestHeaders_eq_none_iff (wellFormed : request.WellFormed)
    (unnamed : isConditional request.requestLine = false) :
    stripCacheRequestHeaders request.bytes = none ↔
      ∀ line ∈ request.headers, isConditional line = false := by
  rw [wellFormed.eq_none_iff length_stripCacheRequestHeaders (wellFormed.cache unnamed)]
  obtain ⟨method, path, params, version, headers, body⟩ := request
  simp [unconditional]

end WellFormed

/-! ## All filters -/

/-- A buffer that is a request whose first line is not taken for a removed field. -/
structure Shows (buf : Bytes) (request : HttpRequest) : Prop where
  eq : buf = request.bytes
  wellFormed : request.WellFormed
  unnamed : lineKeyIn removedNames request.requestLine = false

namespace Shows

variable {buf : Bytes}

theorem other_line (shown : Shows buf request) :
    isReferer request.requestLine = false ∧ isConditional request.requestLine = false := by
  have unnamed := shown.unnamed
  rwa [lineKeyIn_removedNames, Bool.or_eq_false_iff] at unnamed

theorem referer (shown : Shows buf request) :
    Shows (applied injectGoogleReferer buf) request.spoofed := by
  obtain ⟨changed, wellFormed⟩ := shown.wellFormed.referer shown.other_line.1
  exact ⟨by rw [shown.eq, changed], wellFormed, shown.unnamed⟩

theorem cache (shown : Shows buf request) :
    Shows (applied stripCacheRequestHeaders buf) request.unconditional := by
  obtain ⟨changed, wellFormed⟩ := shown.wellFormed.cache shown.other_line.2
  exact ⟨by rw [shown.eq, changed], wellFormed, shown.unnamed⟩

theorem query (shown : Shows buf request)
    (unnamed : lineKeyIn removedNames request.untracked.requestLine = false) :
    Shows (applied stripTrackingQueryParams buf) request.untracked := by
  obtain ⟨changed, wellFormed⟩ := shown.wellFormed.query
  exact ⟨by rw [shown.eq, changed], wellFormed, unnamed⟩

/-- The enabled filters leave the rewritten request. -/
theorem rewrite {strip : Bool} (shown : Shows buf request) (spoof tracker : Bool)
    (unnamed : request.Unnamed strip) :
    Shows (rewriteRequest spoof strip tracker buf) (request.rewritten spoof strip tracker) := by
  rw [rewritten_eq, rewriteRequest]
  apply onlyIf_keeps cache
  have spoofs : Shows (onlyIf spoof (applied injectGoogleReferer) buf)
      (onlyIf spoof spoofed request) :=
    onlyIf_keeps referer spoof shown
  cases strip with
  | false => exact spoofs
  | true =>
      refine spoofs.query ?_
      -- a spoofed request has the same request line
      cases spoof with
      | false => exact unnamed.stripped rfl
      | true => exact unnamed.stripped rfl

end Shows

theorem Unnamed.rewritten {spoof strip tracker : Bool} (unnamed : request.Unnamed strip) :
    (request.rewritten spoof strip tracker).Unnamed strip := by
  cases strip with
  | false => exact ⟨unnamed.received, nofun⟩
  | true =>
      have once := unnamed.stripped rfl
      refine ⟨once, fun _ => ?_⟩
      have again : (request.rewritten spoof true tracker).untracked.requestLine =
          request.untracked.requestLine := by
        simp [untracked, HttpRequest.rewritten, requestLine, target, List.filter_filter]
      rw [again]
      exact once

/-- The filters leave a request as they should, a second pass changes nothing more, and the query
and cache filters fall through exactly when there is nothing for them to remove. -/
theorem rewriting_changes_what_it_names {request : HttpRequest} (spoof strip tracker : Bool)
    (wellFormed : request.WellFormed) (unnamed : request.Unnamed strip) :
    rewriteRequest spoof strip tracker request.bytes =
        (request.rewritten spoof strip tracker).bytes ∧
      (request.rewritten spoof strip tracker).WellFormed ∧
      (∀ other : HttpRequest, other.WellFormed →
        other.bytes = rewriteRequest spoof strip tracker request.bytes →
          other = request.rewritten spoof strip tracker) ∧
      rewriteRequest spoof strip tracker (rewriteRequest spoof strip tracker request.bytes) =
        rewriteRequest spoof strip tracker request.bytes ∧
      (stripTrackingQueryParams request.bytes = none ↔
        ∀ param ∈ request.params, isTrackingParam param = false) ∧
      (stripCacheRequestHeaders request.bytes = none ↔
        ∀ line ∈ request.headers, isConditional line = false) := by
  have shown : Shows request.bytes request := ⟨rfl, wellFormed, unnamed.received⟩
  have once := shown.rewrite spoof tracker unnamed
  have twice := once.rewrite spoof tracker unnamed.rewritten
  rw [rewritten_rewritten] at twice
  refine ⟨once.eq, once.wellFormed, fun other other_wellFormed same => ?_, ?_, ?_, ?_⟩
  · exact bytes_injective other_wellFormed once.wellFormed (same.trans once.eq)
  · exact twice.eq.trans once.eq.symm
  · exact wellFormed.stripTrackingQueryParams_eq_none_iff
  · exact wellFormed.stripCacheRequestHeaders_eq_none_iff shown.other_line.2

/-- A page view that carries a tracking parameter, a Referer and a conditional field. -/
def pageView : HttpRequest where
  method := ascii "GET"
  path := ascii "/a:b"
  params := [ascii "id=1", ascii "UTM_Source=mail"]
  version := ascii "HTTP/1.1"
  headers := [ascii "Host: a.example", ascii "Referer: https://b.example/",
    ascii "If-None-Match: x"]
  body := ascii "Referer: body"

theorem pageView_wellFormed : pageView.WellFormed where
  method := by decide
  path := by decide
  unqueried := by decide
  params := by decide
  head := ⟨by simp [lines], by decide +kernel, by decide⟩
  valid := by decide +kernel

theorem pageView_rewritten :
    rewriteRequest true true true pageView.bytes =
      ascii "GET /a:b?id=1 HTTP/1.1\r\nHost: a.example\r\n" ++
        ascii "Referer: https://www.google.com/\r\n\r\nReferer: body" := by
  have rewrites := rewriting_changes_what_it_names true true true pageView_wellFormed
    (unnamed_of_version (by decide) (by decide +kernel))
  rw [rewrites.1]
  decide +kernel

/-- A request line that becomes a removed field without its tracking parameter. -/
def fieldLine : HttpRequest where
  method := ascii "If-None-Match"
  path := []
  params := [ascii "fbclid=1"]
  version := ascii ":"
  headers := [ascii "Host: a.example"]
  body := []

theorem fieldLine_wellFormed : fieldLine.WellFormed where
  method := by decide
  path := by decide
  unqueried := by decide
  params := by decide
  head := ⟨by simp [lines], by decide +kernel, by decide⟩
  valid := by decide +kernel

/-- Its request line is lost with the filters for trackers on, although the text before the colon of
the line is not the name of a removed field. -/
theorem fieldLine_is_lost :
    fieldLine.WellFormed ∧ lineKeyIn removedNames fieldLine.requestLine = false ∧
      rewriteRequest false true true fieldLine.bytes = ascii "Host: a.example\r\n\r\n" ∧
      rewriteRequest false true true fieldLine.bytes ≠
        (fieldLine.rewritten false true true).bytes :=
  ⟨fieldLine_wellFormed, by decide +kernel, by decide +kernel, by decide +kernel⟩

end HttpRequest

/-- The relay forwards a first request as its filters should leave it. -/
theorem RelayEnv.forwarded_request (env : RelayEnv) {request : HttpRequest}
    (wellFormed : request.WellFormed)
    (unnamed : request.Unnamed env.rewritePlan.queryParamStrip) :
    env.forwarded request.bytes =
      (request.rewritten env.rewritePlan.refererSpoof env.rewritePlan.queryParamStrip
        env.sessionPlan.trackerMatch).bytes := by
  have shown : HttpRequest.Shows request.bytes request := ⟨rfl, wellFormed, unnamed.received⟩
  rw [forwarded_eq]
  exact (shown.rewrite _ _ unnamed).eq

end PrivacyEngine
